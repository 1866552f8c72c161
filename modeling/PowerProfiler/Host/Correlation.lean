-- SUMMARY: Which reply ReadBlk hands over: one to a packet with the same command, and to the very packet when no earlier one can still be answered.
import PowerProfiler.Host.Link

/-!
# Requests and replies

A reply is matched by its command alone. The invariant follows every frame that the parser
may still see, in the receive buffer or on the wire, back to the packet it answers.
-/

open Framing Circular Runs

/-! ## Command bytes -/

theorem low_bits {b : UInt8} (h : b &&& 0x80 = 0) : b &&& 0x7F = b := by
  revert h
  obtain ⟨b⟩ := b
  revert b
  decide

theorem flagged (b : UInt8) : (b ||| 0x80) &&& 0x80 ≠ 0 := by
  obtain ⟨b⟩ := b
  revert b
  decide

/-- A reply without the error flag carries the command of its packet, and no reply is too
long for the protocol. -/
theorem decodePacket_reply {packet : List UInt8} {d : Device} {f : Frame}
    (h : (decodePacket packet d).2 = some f) :
    (f.cmd &&& 0x80 = 0 → packet.getD 1 0 = f.cmd) ∧ f.payload.length ≤ maxBlkCnt := by
  match packet with
  | [] => cases h
  | [_] => cases h
  | size :: cmd :: rest =>
      by_cases hsize : size.toNat ≤ rest.length
      · rw [decodePacket, request, if_pos hsize] at h
        obtain rfl : (cmdDecode (Frame.ofHead size cmd rest) d).2 = f := Option.some.inj h
        obtain ⟨herror, hdata⟩ := cmdDecode_cmd (Frame.ofHead size cmd rest) d
        refine ⟨fun hlow => ?_, length_cmdDecode _ _⟩
        by_cases hbad : Rejected (Frame.ofHead size cmd rest)
        · rw [herror hbad] at hlow
          exact absurd hlow (flagged _)
        · exact (hdata hbad).symm
      · rw [decodePacket, request, if_neg hsize] at h
        cases h

namespace Host

/-! ## A call on whole frames -/

/-- A call whose bytes, carried over and received, are whole frames handles some of them and
carries over some of them. -/
structure WholeCall (fs : List Frame) (written : Option Nat) (h h' : Host) : Prop where
  handled : ∃ es mem idx, es ⊆ fs ∧
    h' = ((h.purge.writeCommand written).handleAll es).1.setBuf mem idx
  pend : ∃ fs', fs' ⊆ fs ∧ h'.pend = stream fs'

theorem receive_whole {h : Host} {fs gs : List Frame} {chunk : Chunk} (hfs : Protocol (fs ++ gs))
    (hpend : h.pend = stream fs) (hchunk : chunk.1 = stream gs) :
    (∃ es mem idx, es ⊆ fs ++ gs ∧ (h.receive chunk).1 = (h.handleAll es).1.setBuf mem idx) ∧
      ∃ fs', fs' ⊆ fs ++ gs ∧ (h.receive chunk).1.pend = stream fs' := by
  by_cases hne : chunk.1 = []
  · have hnone : h.receive chunk = (h, []) := by
      rw [receive, if_neg (by simp [hne])]
    rw [hnone]
    exact ⟨⟨[], h.bufcom, h.idxBufcom, List.nil_subset _, rfl⟩, fs, List.subset_append_left _ _,
      hpend⟩
  · obtain ⟨-, mem, idx, heq, ⟨-, hleft⟩, -⟩ := receive_eq hne h
    -- The bytes of the call are the stream of some of the frames.
    obtain ⟨bs, hbs, hbase⟩ : ∃ bs, bs ⊆ fs ∧ h.base chunk = stream bs := by
      rw [base]
      split
      · exact ⟨[], List.nil_subset _, rfl⟩
      · exact ⟨fs, List.Subset.refl _, hpend⟩
    have hsub : bs ++ gs ⊆ fs ++ gs :=
      List.append_subset.mpr ⟨List.Subset.trans hbs (List.subset_append_left _ _),
        List.subset_append_right _ _⟩
    have hall : Protocol (bs ++ gs) := fun f hf => hfs f (hsub hf)
    have hbytes : h.base chunk ++ chunk.1 = stream (bs ++ gs) := by
      rw [hbase, hchunk, stream_append]
    have hpre : h.base chunk ++ chunk.1 <+: stream (bs ++ gs) := by rw [hbytes]
    obtain ⟨hframes, -⟩ := frames_of_valid hall hpre
    rw [hbytes, split_stream] at hframes
    refine ⟨⟨bs ++ gs, mem, idx, hsub, by rw [heq, hframes]⟩, ?_⟩
    have hpend' : (h.receive chunk).1.pend = Window.read mem 0 idx := by
      rw [heq]
      rfl
    rw [hpend']
    rcases hleft with hsame | hnil | ⟨k, hk⟩
    · exact ⟨bs, List.Subset.trans hbs (List.subset_append_left _ _), hsame.trans hbase⟩
    · exact ⟨[], List.nil_subset _, hnil⟩
    · refine ⟨(bs ++ gs).drop k, fun f hf => hsub (List.drop_subset _ _ hf), ?_⟩
      rw [hframes, hbytes] at hk
      have hcut := congrArg stream (List.take_append_drop k (bs ++ gs))
      rw [stream_append, hk] at hcut
      exact (List.append_cancel_left hcut).symm

theorem queryPort_whole {h : Host} {fs gs : List Frame} (hfs : Protocol (fs ++ gs))
    (hpend : h.pend = stream fs) (written : Option Nat) {readed : Option Chunk}
    (hchunk : ∀ chunk ∈ readed, chunk.1 = stream gs) :
    WholeCall (fs ++ gs) written h (h.queryPort written readed).1 := by
  have hbefore : ∃ fs', fs' ⊆ fs ∧ (h.purge.writeCommand written).pend = stream fs' := by
    have hwrite : (h.purge.writeCommand written).pend = h.purge.pend := by
      unfold writeCommand
      split <;> rfl
    rw [hwrite]
    unfold purge
    split
    · exact ⟨[], List.nil_subset _, rfl⟩
    · exact ⟨fs, List.Subset.refl _, hpend⟩
  obtain ⟨bs, hbs, hbefore⟩ := hbefore
  have hsub : bs ++ gs ⊆ fs ++ gs :=
    List.append_subset.mpr ⟨List.Subset.trans hbs (List.subset_append_left _ _), List.subset_append_right _ _⟩
  rcases readed with _ | chunk
  · exact ⟨⟨[], (h.purge.writeCommand written).bufcom, 0, List.nil_subset _, rfl⟩,
      [], List.nil_subset _, rfl⟩
  · obtain ⟨⟨es, mem, idx, hes, heq⟩, fs', hfs', hpend'⟩ :=
      receive_whole (fun f hf => hfs f (hsub hf)) hbefore (hchunk chunk rfl)
    exact ⟨⟨es, mem, idx, List.Subset.trans hes hsub, heq⟩, fs',
      List.Subset.trans hfs' hsub, hpend'⟩

/-! ## What frames do to the wait -/

/-- The fields that only the user interface and the write change. -/
structure SameSend (h h' : Host) : Prop where
  buftx : h'.buftx = h.buftx
  errtx : h'.errtx = h.errtx
  lentx : h'.lentx = h.lentx

theorem handle_send (f : Frame) (h : Host) : SameSend h (h.handle f).1 := by
  rcases handle_cases f h with ⟨-, -, heq⟩ | ⟨-, -, heq | heq⟩ | ⟨-, -, -, heq⟩ | ⟨-, -, -, -, heq⟩ |
    ⟨-, -, -, -, heq⟩ | ⟨-, -, heq⟩
  · rw [heq]; exact ⟨rfl, rfl, rfl⟩
  · rw [heq]; exact ⟨rfl, rfl, rfl⟩
  · obtain ⟨_, _, _, hcounts⟩ := countsFrame_keeps f h
    rw [heq, hcounts]
    exact ⟨rfl, rfl, rfl⟩
  · rw [heq]; exact ⟨rfl, rfl, rfl⟩
  · rw [heq]; exact ⟨rfl, rfl, rfl⟩
  · rw [heq]; exact ⟨rfl, rfl, rfl⟩
  · rw [heq]; exact ⟨rfl, rfl, rfl⟩

/-- The reply that lies in `bufrx`. -/
structure Taken (G : Frame → Prop) (id : UInt8) (h : Host) (f : Frame) : Prop where
  good : G f
  cmd : f.cmd = id
  lenrx : h.lenrx = f.payload.length
  bufrx : Window.read h.bufrx 0 f.payload.length = f.payload

/-- The wait for a reply to the command `id`, once `wait_id` (`idSet`) and `wait_cnt` (`cntSet`)
are set: when it has ended without an error, such a reply lies in `bufrx`. -/
structure Waits (G : Frame → Prop) (id : UInt8) (idSet cntSet : Prop) (h : Host) : Prop where
  cnt : h.waitCnt.toNat ≤ 3
  waitId : idSet → h.waitId &&& 0x80 = 0 → h.waitId = id
  taken : cntSet → h.waitCnt = 0 → h.waitId &&& 0x80 = 0 → ∃ f, Taken G id h f

section Waits

variable {G : Frame → Prop} {id : UInt8} {idSet cntSet : Prop} {h : Host}

/-- Nothing that the wait looks at has changed. -/
theorem Waits.congr {h' : Host} (hw : Waits G id idSet cntSet h) (hcnt : h'.waitCnt = h.waitCnt)
    (hid : h'.waitId = h.waitId) (hbuf : h'.bufrx = h.bufrx) (hlen : h'.lenrx = h.lenrx) :
    Waits G id idSet cntSet h' := by
  refine ⟨by rw [hcnt]; exact hw.cnt, by rw [hid]; exact hw.waitId, ?_⟩
  rw [hcnt, hid]
  intro hset hzero hlow
  obtain ⟨f, hgood, hcmd, hf, hread⟩ := hw.taken hset hzero hlow
  exact ⟨f, hgood, hcmd, hlen.trans hf, by rw [hbuf]; exact hread⟩

theorem Waits.mono {G' : Frame → Prop} (hw : Waits G id idSet cntSet h) (hG : ∀ f, G f → G' f) :
    Waits G' id idSet cntSet h := by
  refine ⟨hw.cnt, hw.waitId, fun hset hzero hlow => ?_⟩
  obtain ⟨f, hgood, hcmd, hlen, hbuf⟩ := hw.taken hset hzero hlow
  exact ⟨f, hG f hgood, hcmd, hlen, hbuf⟩

theorem Waits.handle (hw : Waits G id idSet cntSet h) (hset : cntSet → idSet) {f : Frame}
    (hf : f.cmd = id → G f) : Waits G id idSet cntSet (h.handle f).1 := by
  rcases handle_cases f h with ⟨-, -, heq⟩ | ⟨-, -, heq | heq⟩ | ⟨-, hpos, hmatch, heq⟩ |
    ⟨-, -, -, -, heq⟩ | ⟨-, hpos, -, hless, heq⟩ | ⟨-, -, heq⟩
  · rw [heq]; exact hw.congr rfl rfl rfl rfl
  · rw [heq]; exact hw
  · obtain ⟨_, _, _, hcounts⟩ := countsFrame_keeps f h
    rw [heq, hcounts]
    exact hw.congr rfl rfl rfl rfl
  · -- The reply is taken.
    rw [heq]
    have hid : (h.replyFrame f).waitId &&& 0x80 = 0 →
        f.cmd &&& 0x80 = 0 ∧ (h.replyFrame f).waitId = h.waitId := by
      intro hlow
      have hflag : (h.replyFrame f).waitId =
          if f.cmd &&& 0x80 ≠ 0 then h.waitId ||| 0x80 else h.waitId := rfl
      by_cases hf : f.cmd &&& 0x80 ≠ 0
      · rw [hflag, if_pos hf] at hlow
        exact absurd hlow (flagged _)
      · rw [hflag, if_neg hf]
        exact ⟨not_not.mp hf, rfl⟩
    refine ⟨Nat.zero_le _, fun hset hlow => ?_, fun hc _ hlow => ?_⟩
    · obtain ⟨-, hsame⟩ := hid hlow
      rw [hsame] at hlow ⊢
      exact hw.waitId hset hlow
    · obtain ⟨hfree, hsame⟩ := hid hlow
      rw [hsame] at hlow
      have hcmd : f.cmd = id := by
        rw [← low_bits hfree, hmatch]
        exact hw.waitId (hset hc) hlow
      exact ⟨f, hf hcmd, hcmd, rfl, Window.read_copyTo _ _ _⟩
  · rw [heq]
    refine ⟨Nat.zero_le _, fun _ hlow => absurd hlow (flagged _),
      fun _ _ hlow => absurd hlow (flagged _)⟩
  · rw [heq]
    have hcnt := hw.cnt
    rw [UInt32.lt_iff_toNat_lt] at hpos hless
    have hsucc : (h.waitCnt + 1).toNat = h.waitCnt.toNat + 1 := by
      rw [UInt32.toNat_add]
      exact Nat.mod_eq_of_lt (show h.waitCnt.toNat + 1 < 2 ^ 32 by omega)
    refine ⟨not_lt.mp hless, hw.waitId, fun _ hzero => ?_⟩
    have hzero' : (h.waitCnt + 1).toNat = 0 := congrArg UInt32.toNat hzero
    omega
  · rw [heq]; exact hw

theorem Waits.handleAll (hw : Waits G id idSet cntSet h) (hset : cntSet → idSet)
    {fs : List Frame} (hfs : ∀ f ∈ fs, f.cmd = id → G f) :
    Waits G id idSet cntSet (h.handleAll fs).1 := by
  induction fs generalizing h with
  | nil => exact hw
  | cons f fs ih =>
      have hstep := hw.handle hset (hfs f List.mem_cons_self)
      rcases hhandle : h.handle f with ⟨h', exited⟩
      rw [hhandle] at hstep
      cases exited
      · rw [handleAll_cons hhandle]
        exact ih hstep fun g hg => hfs g (List.mem_cons_of_mem _ hg)
      · rw [handleAll_cons_exit hhandle]
        exact hstep

end Waits

theorem handleAll_send (fs : List Frame) (h : Host) : SameSend h (h.handleAll fs).1 := by
  induction fs generalizing h with
  | nil => exact ⟨rfl, rfl, rfl⟩
  | cons f fs ih =>
      have hstep := handle_send f h
      rcases hhandle : h.handle f with ⟨h', exited⟩
      rw [hhandle] at hstep
      cases exited
      · rw [handleAll_cons hhandle]
        have hrest := ih h'
        exact ⟨hrest.buftx.trans hstep.buftx, hrest.errtx.trans hstep.errtx,
          hrest.lentx.trans hstep.lentx⟩
      · rw [handleAll_cons_exit hhandle]
        exact hstep

/-- A wait that has ended stays so. -/
theorem handleAll_ended (fs : List Frame) {h : Host} (hzero : h.waitCnt = 0) :
    (h.handleAll fs).1.waitCnt = 0 ∧ (h.handleAll fs).1.waitId = h.waitId := by
  induction fs generalizing h with
  | nil => exact ⟨hzero, rfl⟩
  | cons f fs ih =>
      have hstep : (h.handle f).1.waitCnt = 0 ∧ (h.handle f).1.waitId = h.waitId := by
        have hnot : ¬ 0 < h.waitCnt := by rw [hzero]; decide
        rcases handle_cases f h with ⟨-, -, heq⟩ | ⟨-, -, heq | heq⟩ | ⟨-, hw, -, -⟩ |
          ⟨-, hw, -, -, -⟩ | ⟨-, hw, -, -, -⟩ | ⟨-, -, heq⟩
        · rw [heq]; exact ⟨hzero, rfl⟩
        · rw [heq]; exact ⟨hzero, rfl⟩
        · obtain ⟨_, _, _, hcounts⟩ := countsFrame_keeps f h
          rw [heq, hcounts]
          exact ⟨hzero, rfl⟩
        · exact absurd hw hnot
        · exact absurd hw hnot
        · exact absurd hw hnot
        · rw [heq]; exact ⟨hzero, rfl⟩
      rcases hhandle : h.handle f with ⟨h', exited⟩
      rw [hhandle] at hstep
      cases exited
      · rw [handleAll_cons hhandle]
        obtain ⟨hcnt, hid⟩ := ih hstep.1
        exact ⟨hcnt, hid.trans hstep.2⟩
      · rw [handleAll_cons_exit hhandle]
        exact hstep

end Host

namespace Link

open Host (Protocol Waits)

/-! ## Where frames come from -/

/-- The frame is what the device answered to a packet of the history, in the state in which it
answered that packet; under `strict` the packet is none before packet `n`. -/
def Answers (strict : Prop) (n : Nat) (sent : List (List UInt8)) (answers : List Device)
    (f : Frame) : Prop :=
  ∃ j packet d, sent[j]? = some packet ∧ answers[j]? = some d ∧
    (decodePacket packet d).2 = some f ∧ (strict → n ≤ j)

/-- Valid frames; those with the command `id` answer such packets. -/
def Genuine (id : UInt8) (strict : Prop) (n : Nat) (sent : List (List UInt8))
    (answers : List Device) (fs : List Frame) : Prop :=
  Protocol fs ∧ ∀ f ∈ fs, f.cmd = id → Answers strict n sent answers f

section Genuine

variable {id : UInt8} {strict : Prop} {n : Nat} {sent : List (List UInt8)}
  {answers : List Device} {fs gs : List Frame}

theorem getElem?_of_append {α : Type} {l : List α} {j : Nat} {a : α} (h : l[j]? = some a)
    (more : List α) : (l ++ more)[j]? = some a := by
  rw [List.getElem?_append_left (List.getElem?_eq_some_iff.mp h).1]
  exact h

theorem Answers.append {f : Frame} (h : Answers strict n sent answers f)
    (more : List (List UInt8)) (more' : List Device) :
    Answers strict n (sent ++ more) (answers ++ more') f := by
  obtain ⟨j, packet, d, hj, hd, hreply, hstrict⟩ := h
  exact ⟨j, packet, d, getElem?_of_append hj more, getElem?_of_append hd more', hreply, hstrict⟩

theorem Genuine.append_history (h : Genuine id strict n sent answers fs)
    (more : List (List UInt8)) (more' : List Device) :
    Genuine id strict n (sent ++ more) (answers ++ more') fs :=
  ⟨h.1, fun f hf hcmd => (h.2 f hf hcmd).append more more'⟩

theorem Genuine.subset (h : Genuine id strict n sent answers fs) (hsub : gs ⊆ fs) :
    Genuine id strict n sent answers gs :=
  ⟨fun f hf => h.1 f (hsub hf), fun f hf => h.2 f (hsub hf)⟩

theorem Genuine.append (hf : Genuine id strict n sent answers fs)
    (hg : Genuine id strict n sent answers gs) : Genuine id strict n sent answers (fs ++ gs) := by
  refine ⟨fun f hmem => ?_, fun f hmem => ?_⟩
  · rcases List.mem_append.mp hmem with hmem | hmem
    · exact hf.1 f hmem
    · exact hg.1 f hmem
  · rcases List.mem_append.mp hmem with hmem | hmem
    · exact hf.2 f hmem
    · exact hg.2 f hmem

end Genuine

/-- Every frame that the host may still see, and every packet still to be answered. -/
structure Streams (c : Command) (strict : Prop) (n : Nat) (s : Link) : Prop where
  held : ∃ fs, s.host.pend = stream fs ∧ Genuine c.cmd strict n s.sent s.answers fs
  wire : Genuine c.cmd strict n s.sent s.answers s.wire
  pending : strict → ∀ j packet, s.answered ≤ j → s.sent[j]? = some packet →
    packet.getD 1 0 = c.cmd → n ≤ j
  le_sent : n ≤ s.sent.length

section Streams

variable {c : Command} {strict : Prop} {n : Nat} {s : Link}

theorem Streams.answer (hs : Streams c strict n s) (d : Device) :
    Streams c strict n (s.answer d) := by
  rw [Link.answer]
  split
  · exact hs
  next packet hpacket =>
    have hlater : ∀ {fs : List Frame}, Genuine c.cmd strict n s.sent s.answers fs →
        Genuine c.cmd strict n s.sent (s.answers ++ [d]) fs := by
      intro fs hfs
      have hmore := hfs.append_history [] [d]
      rwa [List.append_nil] at hmore
    obtain ⟨fs, hpend, hfs⟩ := hs.held
    refine ⟨⟨fs, hpend, hlater hfs⟩,
      (hlater hs.wire).append ⟨fun f hf => ?_, fun f hf hcmd => ?_⟩, ?_, hs.le_sent⟩
    · exact (decodePacket_reply (Option.mem_toList.mp hf)).2
    · have hreply := Option.mem_toList.mp hf
      have hlow : f.cmd &&& 0x80 = 0 := by rw [hcmd]; exact c.low
      refine ⟨s.answered, packet, d, hpacket, List.getElem?_concat_length, hreply,
        fun hstrict => ?_⟩
      exact hs.pending hstrict _ packet (le_refl _) hpacket
        (((decodePacket_reply hreply).1 hlow).trans hcmd)
    · intro hstrict j packet' hj
      have hmore : s.answered ≤ (s.answers ++ [d]).length := by
        rw [List.length_append]
        exact Nat.le_add_right _ _
      exact hs.pending hstrict j packet' (hmore.trans hj)

/-- What an answer leaves alone. -/
structure AnswerKeeps (s s' : Link) : Prop where
  host : s'.host = s.host
  ui : s'.ui = s.ui
  sent : s'.sent = s.sent
  dataCount : s'.dataCount = s.dataCount
  answers : ∃ more, s'.answers = s.answers ++ more

theorem answer_keeps (d : Device) (s : Link) : AnswerKeeps s (s.answer d) := by
  rw [Link.answer]
  split
  · exact ⟨rfl, rfl, rfl, rfl, [], (List.append_nil _).symm⟩
  · exact ⟨rfl, rfl, rfl, rfl, [d], rfl⟩

theorem Streams.answers (hs : Streams c strict n s) (ds : List Device) :
    Streams c strict n (ds.foldl (fun s d => s.answer d) s) := by
  induction ds generalizing s with
  | nil => exact hs
  | cons d ds ih => exact ih (hs.answer d)

theorem answers_keep (ds : List Device) (s : Link) :
    AnswerKeeps s (ds.foldl (fun s d => s.answer d) s) := by
  induction ds generalizing s with
  | nil => exact ⟨rfl, rfl, rfl, rfl, [], (List.append_nil _).symm⟩
  | cons d ds ih =>
      have hone := answer_keeps d s
      have hrest := ih (s.answer d)
      obtain ⟨more, hmore⟩ := hone.answers
      obtain ⟨more', hmore'⟩ := hrest.answers
      refine ⟨hrest.host.trans hone.host, hrest.ui.trans hone.ui, hrest.sent.trans hone.sent,
        hrest.dataCount.trans hone.dataCount, more ++ more', ?_⟩
      rw [List.foldl_cons, hmore', hmore, List.append_assoc]

theorem deliver_append (written : Option Nat) (s : Link) :
    ∃ more, s.deliver written = s.sent ++ more := by
  rw [deliver]
  split
  · exact ⟨_, rfl⟩
  · exact ⟨[], (List.append_nil _).symm⟩

/-- Behind the write. -/
theorem Streams.deliver (hs : Streams c strict n s) (written : Option Nat) (purged : Nat) :
    Streams c strict n { s with sent := s.deliver written, wire := s.purgeWire purged } := by
  obtain ⟨more, hmore⟩ := deliver_append written s
  have hlater : ∀ {fs : List Frame}, Genuine c.cmd strict n s.sent s.answers fs →
      Genuine c.cmd strict n (s.sent ++ more) s.answers fs := by
    intro fs hfs
    have hmore := hfs.append_history more []
    rwa [List.append_nil] at hmore
  have hwire : Genuine c.cmd strict n s.sent s.answers (s.purgeWire purged) := by
    rw [purgeWire]
    split
    · exact hs.wire.subset (List.drop_subset _ _)
    · exact hs.wire
  obtain ⟨fs, hpend, hfs⟩ := hs.held
  rw [hmore]
  refine ⟨⟨fs, hpend, hlater hfs⟩, hlater hwire, ?_, ?_⟩
  · intro hstrict j packet hj hpacket hcmd
    by_cases hold : j < s.sent.length
    · have hpacket' : s.sent[j]? = some packet := by
        rw [← List.getElem?_append_left hold]
        exact hpacket
      exact hs.pending hstrict j packet hj hpacket' hcmd
    · exact hs.le_sent.trans (not_lt.mp hold)
  · rw [List.length_append]
    exact hs.le_sent.trans (Nat.le_add_right _ _)

theorem arrivals_split (k : Nat) (wire : List Frame) :
    wire = arrivals k wire ++ wire.drop (arrivals k wire).length := by
  rw [arrivals]
  split
  · rw [List.length_take]
    by_cases hk : k ≤ wire.length
    · rw [min_eq_left hk, List.take_append_drop]
    · rw [min_eq_right (by omega), List.take_of_length_le (by omega), List.drop_length,
        List.append_nil]
  · rfl

/-- All that a call does to the machine: the write, the answers, and whole frames to the
host. -/
theorem query_eq (hs : Streams c strict n s) (written : Option Nat) (purged : Nat)
    (answers : List Device) (readed : Option Nat) :
    Streams c strict n (s.query written purged answers readed) ∧
      (s.query written purged answers readed).ui = s.ui ∧
      (s.query written purged answers readed).sent = s.deliver written ∧
      (s.query written purged answers readed).dataCount = s.dataCount ∧
      (∃ more, (s.query written purged answers readed).answers = s.answers ++ more) ∧
      ∃ es mem idx, Genuine c.cmd strict n (s.deliver written)
          (s.query written purged answers readed).answers es ∧
        (s.query written purged answers readed).host =
          ((s.host.purge.writeCommand written).handleAll es).1.setBuf mem idx := by
  have hs₁ := (hs.deliver written purged).answers answers
  obtain ⟨hhost, hui, hsent, hcount, hmore⟩ := answers_keep answers
    { s with sent := s.deliver written, wire := s.purgeWire purged }
  unfold query
  dsimp only
  generalize answers.foldl (fun s d => s.answer d)
    { s with sent := s.deliver written, wire := s.purgeWire purged } = s₁
      at hs₁ hhost hui hsent hcount hmore
  obtain ⟨fs, hpend, hfs⟩ := hs₁.held
  rw [hhost] at hpend
  have hpend' : s.host.pend = stream fs := hpend
  rw [hsent] at hfs
  rcases readed with _ | k
  · obtain ⟨⟨es, mem, idx, hes, heq⟩, fs', hfs', hpend''⟩ :=
      @Host.queryPort_whole s.host fs [] (by rw [List.append_nil]; exact hfs.1) hpend' written
        none (by rintro _ ⟨⟩)
    rw [List.append_nil] at hes hfs'
    refine ⟨⟨⟨fs', hpend'', ?_⟩, hs₁.wire, hs₁.pending, hs₁.le_sent⟩, hui, hsent, hcount, hmore,
      es, mem, idx, hfs.subset hes, heq⟩
    show Genuine c.cmd strict n s₁.sent s₁.answers fs'
    rw [hsent]
    exact hfs.subset hfs'
  · have hsplit := arrivals_split k s₁.wire
    have hwire := hs₁.wire
    rw [hsent] at hwire
    have harr : Genuine c.cmd strict n (s.deliver written) s₁.answers (arrivals k s₁.wire) := by
      refine hwire.subset ?_
      conv_rhs => rw [hsplit]
      exact List.subset_append_left _ _
    obtain ⟨⟨es, mem, idx, hes, heq⟩, fs', hfs', hpend''⟩ :=
      @Host.queryPort_whole s.host fs _ (hfs.append harr).1 hpend' written
        (some (arrived k s₁.wire)) (by rintro _ ⟨⟩; rfl)
    refine ⟨⟨⟨fs', hpend'', ?_⟩, ?_, hs₁.pending, hs₁.le_sent⟩, hui, hsent, hcount, hmore, es,
      mem, idx, (hfs.append harr).subset hes, heq⟩
    · show Genuine c.cmd strict n s₁.sent s₁.answers fs'
      rw [hsent]
      exact (hfs.append harr).subset hfs'
    · exact hs₁.wire.subset (List.drop_subset _ _)

end Streams

/-- The steps of the user interface touch no frame and no packet on its way. -/
theorem uiStep_keeps (s : Link) : s.uiStep.host.pend = s.host.pend ∧ s.uiStep.wire = s.wire ∧
    s.uiStep.sent = s.sent ∧ s.uiStep.answers = s.answers := by
  unfold uiStep
  dsimp only
  split
  · exact ⟨rfl, rfl, rfl, rfl⟩
  · split
    · split <;> exact ⟨rfl, rfl, rfl, rfl⟩
    · exact ⟨rfl, rfl, rfl, rfl⟩
  · exact ⟨rfl, rfl, rfl, rfl⟩
  · exact ⟨rfl, rfl, rfl, rfl⟩
  · exact ⟨rfl, rfl, rfl, rfl⟩
  · exact ⟨rfl, rfl, rfl, rfl⟩
  · split
    · split <;> exact ⟨rfl, rfl, rfl, rfl⟩
    · split <;> exact ⟨rfl, rfl, rfl, rfl⟩
  · split
    · split <;> exact ⟨rfl, rfl, rfl, rfl⟩
    · exact ⟨rfl, rfl, rfl, rfl⟩
  · exact ⟨rfl, rfl, rfl, rfl⟩

theorem Streams.step {c : Command} {strict : Prop} {n : Nat} {s : Link}
    (hs : Streams c strict n s) (e : Event) : Streams c strict n (step e s) := by
  cases e with
  | ui =>
      obtain ⟨hpend, hwire, hsent, hans⟩ := uiStep_keeps s
      show Streams c strict n s.uiStep
      refine ⟨?_, ?_, ?_, ?_⟩
      · rw [hpend, hsent, hans]; exact hs.held
      · rw [hwire, hsent, hans]; exact hs.wire
      · rw [answered, hans, hsent]; exact hs.pending
      · rw [hsent]; exact hs.le_sent
  | purge => exact ⟨hs.held, hs.wire, hs.pending, hs.le_sent⟩
  | measure workAdc samplesEna => exact ⟨hs.held, hs.wire, hs.pending, hs.le_sent⟩
  | query written purged answers readed => exact (query_eq hs written purged answers readed).1
  | answer d => exact hs.answer d
  | block b =>
      refine ⟨hs.held, hs.wire.append ⟨?_, ?_⟩, hs.pending, hs.le_sent⟩
      · intro f hf
        rw [List.mem_singleton.mp hf]
        exact b.length_le
      · intro f hf hcmd
        rw [List.mem_singleton.mp hf] at hcmd
        exact absurd hcmd.symm c.notData

/-! ## The course of a command -/

end Link

/-- `wait_id` is set for the command in progress. -/
def Ui.idSet : Ui → Prop
  | .setCnt _ | .setLen _ | .sending _ | .reading _ => True
  | .done result => result = true
  | _ => False

/-- `wait_cnt` is set for it. -/
def Ui.cntSet : Ui → Prop
  | .setLen _ | .sending _ | .reading _ => True
  | .done result => result = true
  | _ => False

theorem Ui.cntSet.idSet {ui : Ui} (h : ui.cntSet) : ui.idSet := by
  cases ui <;> simp_all [Ui.cntSet, Ui.idSet]

namespace Link

open Host (Waits)

/-- `buftx` holds the command behind its size byte. -/
def Filled (c : Command) (s : Link) : Prop :=
  Window.read s.host.buftx 1 (c.data.length + 1) = c.cmd :: c.data ∧
    s.dataCount = UInt8.ofNat c.data.length

/-- The packet of the command is the last that the device was sent. -/
def Sent (c : Command) (n : Nat) (s : Link) : Prop :=
  s.sent.length = n + 1 ∧ s.sent[n]? = some c.bytes

/-- How far `SendBlk` and `ReadBlk` are with the command, which becomes packet `n`. -/
def Course (c : Command) (n : Nat) (s : Link) : Prop :=
  match s.ui with
  | .idle => s.host.lentx = 0
  | .entering _ | .setSize _ => Filled c s ∧ s.host.lentx = 0 ∧ s.sent.length = n
  | .setId _ | .setCnt _ | .setLen _ =>
      Filled c s ∧ s.host.buftx 0 = s.dataCount ∧ s.host.lentx = 0 ∧ s.sent.length = n
  | .sending _ =>
      (Filled c s ∧ s.host.buftx 0 = s.dataCount ∧ s.host.lentx = s.dataCount.toNat + 2 ∧
        s.sent.length = n) ∨
      (s.host.lentx = 0 ∧ (s.host.errtx = 0 → Sent c n s))
  | .reading _ | .done _ => s.host.lentx = 0 ∧ Sent c n s

/-- The invariant of a run with one command in progress. -/
structure Progress (c : Command) (strict : Prop) (n : Nat) (s : Link) : Prop where
  streams : Streams c strict n s
  waits : Waits (Answers strict n s.sent s.answers) c.cmd s.ui.idSet s.ui.cntSet s.host
  course : Course c n s
  ended : s.ui = .done true → s.host.waitCnt = 0 ∧ s.host.waitId &&& 0x80 = 0

section Course

variable {c : Command} {strict : Prop} {n : Nat} {s : Link}

theorem Course.congr {s' : Link} (h : Course c n s) (hui : s'.ui = s.ui)
    (hbuf : s'.host.buftx = s.host.buftx) (herr : s'.host.errtx = s.host.errtx)
    (hlen : s'.host.lentx = s.host.lentx) (hcount : s'.dataCount = s.dataCount)
    (hsent : s'.sent = s.sent) : Course c n s' := by
  unfold Course Filled Sent at h ⊢
  rw [hui, hbuf, herr, hlen, hcount, hsent]
  exact h

/-- Only while `SendBlk` waits for it is there something to write. -/
theorem Course.lentx (h : Course c n s) : s.host.lentx = 0 ∨
    ((∃ x, s.ui = .sending x) ∧ Filled c s ∧ s.host.buftx 0 = s.dataCount ∧
      s.host.lentx = s.dataCount.toNat + 2 ∧ s.sent.length = n) := by
  unfold Course at h
  split at h
  · exact .inl h
  · exact .inl h.2.1
  · exact .inl h.2.1
  · exact .inl h.2.2.1
  · exact .inl h.2.2.1
  · exact .inl h.2.2.1
  next x hui =>
    rcases h with h | h
    · exact .inr ⟨⟨x, hui⟩, h⟩
    · exact .inl h.1
  · exact .inl h.1
  · exact .inl h.1

/-- What `WriteFile` is given. -/
theorem packet_eq (hfill : Filled c s) (hsize : s.host.buftx 0 = s.dataCount)
    (hlen : s.host.lentx = s.dataCount.toNat + 2) : s.host.packet = c.bytes := by
  obtain ⟨hread, hcount⟩ := hfill
  have hfits := c.fits
  have hnat : s.dataCount.toNat = c.data.length := by
    rw [hcount]
    exact Nat.mod_eq_of_lt (show c.data.length < 256 by omega)
  have htwo : c.data.length + 2 = c.data.length + 1 + 1 := rfl
  rw [Host.packet, hlen, hnat, htwo, Window.read_succ, hread, hsize, hcount]
  rfl

theorem Progress.uiStep (h : Progress c strict n s) : Progress c strict n s.uiStep := by
  obtain ⟨hstreams, hwaits, hcourse, hended⟩ := h
  have hstreams' : Streams c strict n s.uiStep := hstreams.step .ui
  obtain ⟨host, ui, dataCount, sent, answers, wire⟩ := s
  cases ui with
  | idle => exact ⟨hstreams, hwaits, hcourse, hended⟩
  | entering x =>
      have hzero : host.lentx = 0 := hcourse.2.1
      have hstep : uiStep ⟨host, .entering x, dataCount, sent, answers, wire⟩ =
          ⟨host, .setSize x, dataCount, sent, answers, wire⟩ := by
        simp only [Link.uiStep, hzero, ne_eq, not_true_eq_false, if_false]
      rw [hstep] at hstreams' ⊢
      exact ⟨hstreams', hwaits, hcourse, fun hui => by cases hui⟩
  | setSize x =>
      obtain ⟨⟨hread, hcount⟩, hlen, hn⟩ := hcourse
      refine ⟨hstreams', hwaits.congr rfl rfl rfl rfl, ⟨⟨?_, hcount⟩, ?_, hlen, hn⟩,
        fun hui => by cases hui⟩
      · refine (Window.read_congr fun a ha _ => ?_).trans hread
        exact Function.update_of_ne (show a ≠ 0 by omega) dataCount host.buftx
      · exact Function.update_self 0 dataCount host.buftx
  | setId x =>
      obtain ⟨⟨hread, hcount⟩, hsize, hlen, hn⟩ := hcourse
      have hid : host.buftx 1 = c.cmd := by
        rw [Window.read_succ] at hread
        exact (List.cons.inj hread).1
      exact ⟨hstreams', ⟨hwaits.cnt, fun _ _ => hid, fun hset => hset.elim⟩,
        ⟨⟨hread, hcount⟩, hsize, hlen, hn⟩, fun hui => by cases hui⟩
  | setCnt x =>
      refine ⟨hstreams', ⟨show 1 ≤ 3 by decide, hwaits.waitId, fun _ hzero => ?_⟩, hcourse,
        fun hui => by cases hui⟩
      exact absurd (show (1 : UInt32) = 0 from hzero) (by decide)
  | setLen x =>
      obtain ⟨hfill, hsize, hlen, hn⟩ := hcourse
      exact ⟨hstreams', hwaits.congr rfl rfl rfl rfl, .inl ⟨hfill, hsize, rfl, hn⟩,
        fun hui => by cases hui⟩
  | sending x =>
      by_cases hzero : host.lentx = 0
      · by_cases herr : host.errtx = 0
        · have hstep : uiStep ⟨host, .sending x, dataCount, sent, answers, wire⟩ =
              ⟨host, .reading 0, dataCount, sent, answers, wire⟩ := by
            simp only [Link.uiStep, hzero, herr, ne_eq, not_true_eq_false, if_false]
          rw [hstep] at hstreams' ⊢
          refine ⟨hstreams', hwaits, ⟨hzero, ?_⟩, fun hui => by cases hui⟩
          rcases hcourse with ⟨-, -, hlen, -⟩ | hcourse
          · exact absurd (hzero.symm.trans hlen) (by omega)
          · exact hcourse.2 herr
        · have hstep : uiStep ⟨host, .sending x, dataCount, sent, answers, wire⟩ =
              ⟨host, .idle, dataCount, sent, answers, wire⟩ := by
            simp only [Link.uiStep, hzero, herr, ne_eq, not_true_eq_false, not_false_eq_true,
              if_false, if_true]
          rw [hstep] at hstreams' ⊢
          exact ⟨hstreams', ⟨hwaits.cnt, fun hset => hset.elim, fun hset => hset.elim⟩, hzero,
            fun hui => by cases hui⟩
      · by_cases hx : 5 < x + 1
        · have hstep : uiStep ⟨host, .sending x, dataCount, sent, answers, wire⟩ =
              ⟨{ host with lentx := 0 }, .idle, dataCount, sent, answers, wire⟩ := by
            simp only [Link.uiStep, hzero, ne_eq, not_false_eq_true, if_true, hx]
          rw [hstep] at hstreams' ⊢
          exact ⟨hstreams', ⟨hwaits.cnt, fun hset => hset.elim, fun hset => hset.elim⟩, rfl,
            fun hui => by cases hui⟩
        · have hstep : uiStep ⟨host, .sending x, dataCount, sent, answers, wire⟩ =
              ⟨host, .sending (x + 1), dataCount, sent, answers, wire⟩ := by
            simp only [Link.uiStep, hzero, ne_eq, not_false_eq_true, if_true, hx, if_false]
          rw [hstep] at hstreams' ⊢
          exact ⟨hstreams', hwaits, hcourse, fun hui => by cases hui⟩
  | reading x =>
      by_cases hzero : host.waitCnt = 0
      · have hstep : uiStep ⟨host, .reading x, dataCount, sent, answers, wire⟩ =
            ⟨host, .done host.readBlk, dataCount, sent, answers, wire⟩ := by
          simp only [Link.uiStep, hzero, ne_eq, not_true_eq_false, if_false]
        rw [hstep] at hstreams' ⊢
        refine ⟨hstreams', ⟨hwaits.cnt, fun _ => hwaits.waitId trivial,
          fun _ => hwaits.taken trivial⟩, hcourse, fun hui => ⟨hzero, ?_⟩⟩
        have hread : host.readBlk = true := by
          injection hui
        simpa [Host.readBlk] using hread
      · by_cases hx : 5 < x + 1
        · have hstep : uiStep ⟨host, .reading x, dataCount, sent, answers, wire⟩ =
              ⟨{ host with waitCnt := 0 }, .done false, dataCount, sent, answers, wire⟩ := by
            simp only [Link.uiStep, hzero, ne_eq, not_false_eq_true, if_true, hx]
          rw [hstep] at hstreams' ⊢
          have hnever : ¬ false = true := Bool.false_ne_true
          exact ⟨hstreams', ⟨Nat.zero_le _, fun hset => absurd hset hnever,
            fun hset => absurd hset hnever⟩, hcourse, fun hui => by cases hui⟩
        · have hstep : uiStep ⟨host, .reading x, dataCount, sent, answers, wire⟩ =
              ⟨host, .reading (x + 1), dataCount, sent, answers, wire⟩ := by
            simp only [Link.uiStep, hzero, ne_eq, not_false_eq_true, if_true, hx, if_false]
          rw [hstep] at hstreams' ⊢
          exact ⟨hstreams', hwaits, hcourse, fun hui => by cases hui⟩
  | done result => exact ⟨hstreams, hwaits, hcourse, hended⟩

/-- What the write does to a host, apart from the receive buffer and the ring. -/
theorem before_read (written : Option Nat) (h : Host) :
    let h₁ := h.purge.writeCommand written
    h₁.waitCnt = h.waitCnt ∧ h₁.waitId = h.waitId ∧ h₁.bufrx = h.bufrx ∧ h₁.lenrx = h.lenrx ∧
      h₁.buftx = h.buftx ∧ h₁.lentx = 0 ∧ (h.lentx = 0 → h₁.errtx = h.errtx) ∧
      (h.lentx ≠ 0 → h₁.errtx = 0 → written = some h.lentx) := by
  intro h₁
  have hpurge : h.purge.waitCnt = h.waitCnt ∧ h.purge.waitId = h.waitId ∧
      h.purge.bufrx = h.bufrx ∧ h.purge.lenrx = h.lenrx ∧ h.purge.buftx = h.buftx ∧
      h.purge.lentx = h.lentx ∧ h.purge.errtx = h.errtx := by
    unfold Host.purge
    split <;> exact ⟨rfl, rfl, rfl, rfl, rfl, rfl, rfl⟩
  obtain ⟨hcnt, hid, hrx, hlenrx, htx, hlentx, herr⟩ := hpurge
  by_cases hzero : h.purge.lentx = 0
  · have hsame : h₁ = h.purge := by
      show h.purge.writeCommand written = h.purge
      rw [Host.writeCommand.eq_def, if_neg (not_not.mpr hzero)]
    rw [hsame]
    exact ⟨hcnt, hid, hrx, hlenrx, htx, hzero, fun _ => herr,
      fun hne => absurd (hlentx.symm.trans hzero) hne⟩
  · have hdrop : ∀ errtx : UInt8, h.lentx = 0 → errtx = h.errtx :=
      fun _ h0 => absurd (hlentx.trans h0) hzero
    rcases written with _ | k
    · have hwrite : h₁ = { h.purge with errtx := 1, lentx := 0 } := Host.writeCommand_none hzero
      rw [hwrite]
      refine ⟨hcnt, hid, hrx, hlenrx, htx, rfl, hdrop _, fun _ hok => ?_⟩
      exact absurd (show (1 : UInt8) = 0 from hok) (by decide)
    · have hwrite : h₁ = { h.purge with errtx := if h.purge.lentx ≠ k then 2 else 0, lentx := 0 } :=
        Host.writeCommand_some hzero k
      rw [hwrite]
      refine ⟨hcnt, hid, hrx, hlenrx, htx, rfl, hdrop _, fun _ hok => ?_⟩
      by_cases hk : h.purge.lentx ≠ k
      · have htwo : (if h.purge.lentx ≠ k then (2 : UInt8) else 0) = 0 := hok
        rw [if_pos hk] at htwo
        exact absurd htwo (by decide)
      · rw [← not_not.mp hk, hlentx]

theorem Progress.query (h : Progress c strict n s) (written : Option Nat) (purged : Nat)
    (answers : List Device) (readed : Option Nat) :
    Progress c strict n (s.query written purged answers readed) := by
  obtain ⟨hstreams, hui, hsent, hcount, ⟨more', hans⟩, es, mem, idx, hes, hhost⟩ :=
    query_eq h.streams written purged answers readed
  obtain ⟨hcnt, hid, hrx, hlenrx, htx, hlentx, herr, hok⟩ := before_read written s.host
  obtain ⟨hbuftx, herrtx, hlentx'⟩ :=
    Host.handleAll_send es (s.host.purge.writeCommand written)
  generalize s.query written purged answers readed = s' at hstreams hui hsent hcount hans hes hhost ⊢
  have hbuf : s'.host.buftx = s.host.buftx := by rw [hhost]; exact hbuftx.trans htx
  have hlen : s'.host.lentx = 0 := by rw [hhost]; exact hlentx'.trans hlentx
  have herr' : s'.host.errtx = (s.host.purge.writeCommand written).errtx := by
    rw [hhost]
    exact herrtx
  refine ⟨hstreams, ?_, ?_, ?_⟩
  · -- The wait, through the write and then the frames.
    obtain ⟨more, hmore⟩ := deliver_append written s
    have hbefore := (h.waits.congr hcnt hid hrx hlenrx).mono
      fun f hf => show Answers strict n (s.deliver written) s'.answers f by
        rw [hmore, hans]
        exact Answers.append hf more more'
    have hafter := hbefore.handleAll Ui.cntSet.idSet hes.2
    rw [hui, hsent, hhost]
    exact hafter.congr rfl rfl rfl rfl
  · rcases h.course.lentx with hzero | ⟨⟨x, hsending⟩, hfill, hsize, hlentx₀, hn⟩
    · have hdeliver : s.deliver written = s.sent := by
        rw [deliver, if_neg fun hboth => hboth.1 hzero]
      exact h.course.congr hui hbuf (herr'.trans (herr hzero)) (hlen.trans hzero.symm) hcount
        (hsent.trans hdeliver)
    · -- The packet of the command is written.
      have hne : s.host.lentx ≠ 0 := by omega
      have hcourse : Course c n s' = Course c n { s' with ui := .sending x } := by
        rw [← hsending, ← hui]
      rw [hcourse]
      refine .inr ⟨hlen, fun hzero => ?_⟩
      have hwritten := hok hne (herr'.symm.trans hzero)
      have hdeliver : s'.sent = s.sent ++ [c.bytes] := by
        rw [hsent, deliver, if_pos ⟨hne, hwritten⟩, packet_eq hfill hsize hlentx₀]
      show s'.sent.length = n + 1 ∧ s'.sent[n]? = some c.bytes
      rw [hdeliver, List.length_append, hn]
      exact ⟨rfl, by rw [← hn, List.getElem?_concat_length]⟩
  · intro hdone
    rw [hui] at hdone
    obtain ⟨hzero, hlow⟩ := h.ended hdone
    obtain ⟨hcnt', hid'⟩ := Host.handleAll_ended es (hcnt.trans hzero)
    rw [hhost]
    exact ⟨hcnt', by
      show ((s.host.purge.writeCommand written).handleAll es).1.waitId &&& 0x80 = 0
      rw [hid', hid]
      exact hlow⟩

theorem Progress.step (h : Progress c strict n s) (e : Event) :
    Progress c strict n (step e s) := by
  have hstreams := h.streams.step e
  cases e with
  | ui => exact h.uiStep
  | purge => exact ⟨hstreams, h.waits.congr rfl rfl rfl rfl,
      h.course.congr rfl rfl rfl rfl rfl rfl, h.ended⟩
  | measure workAdc samplesEna => exact ⟨hstreams, h.waits.congr rfl rfl rfl rfl,
      h.course.congr rfl rfl rfl rfl rfl rfl, h.ended⟩
  | query written purged answers readed => exact h.query written purged answers readed
  | answer d =>
      obtain ⟨hhost, hui, hsent, hcount, more, hmore⟩ := answer_keeps d s
      refine ⟨hstreams, ?_, ?_, ?_⟩
      · show Waits (Answers strict n (s.answer d).sent (s.answer d).answers) c.cmd
          (s.answer d).ui.idSet (s.answer d).ui.cntSet (s.answer d).host
        rw [hhost, hui, hsent, hmore]
        refine h.waits.mono fun f hf => ?_
        have hlater := Answers.append hf [] more
        rwa [List.append_nil] at hlater
      · exact h.course.congr hui (congrArg _ hhost) (congrArg _ hhost) (congrArg _ hhost) hcount
          hsent
      · show (s.answer d).ui = .done true →
          (s.answer d).host.waitCnt = 0 ∧ (s.answer d).host.waitId &&& 0x80 = 0
        rw [hhost, hui]
        exact h.ended
  | block b => exact ⟨hstreams, h.waits, h.course.congr rfl rfl rfl rfl rfl rfl, h.ended⟩

theorem Progress.run (h : Progress c strict n s) (es : List Event) :
    Progress c strict n (run Link.step es s) := by
  induction es generalizing s with
  | nil => exact h
  | cons e es ih => exact ih (h.step e)

/-- No reply to an earlier packet with the command can still arrive. -/
def Settled (c : Command) (s : Link) : Prop :=
  s.host.idxBufcom = 0 ∧ (∀ f ∈ s.wire, f.cmd ≠ c.cmd) ∧
    ∀ j packet, s.answered ≤ j → s.sent[j]? = some packet → packet.getD 1 0 ≠ c.cmd

/-- All frames of a machine that is reached answer packets of its history. -/
theorem Reachable.streams (hs : Reachable s) (c : Command) : Streams c False 0 s := by
  induction hs with
  | start =>
      have hnil : Genuine c.cmd False 0 [] [] [] := ⟨fun _ hf => by simp at hf, fun _ hf => by simp at hf⟩
      exact ⟨⟨[], rfl, hnil⟩, hnil, fun hfalse => hfalse.elim, Nat.zero_le _⟩
  | step _ e ih => exact ih.step e
  | ask _ _ _ ih => exact ⟨ih.held, ih.wire, ih.pending, ih.le_sent⟩

/-- From the start of a command on, no earlier packet is answered if the machine is
settled. -/
theorem Streams.settled (hs : Streams c False 0 s) : Streams c (Settled c s) s.sent.length s := by
  have hgenuine : ∀ {fs : List Frame}, Genuine c.cmd False 0 s.sent s.answers fs →
      (Settled c s → ∀ f ∈ fs, f.cmd ≠ c.cmd) →
      Genuine c.cmd (Settled c s) s.sent.length s.sent s.answers fs := by
    intro fs hfs hnone
    refine ⟨hfs.1, fun f hf hcmd => ?_⟩
    obtain ⟨j, packet, d, hj, hd, hreply, -⟩ := hfs.2 f hf hcmd
    exact ⟨j, packet, d, hj, hd, hreply, fun hsettled => absurd hcmd (hnone hsettled f hf)⟩
  obtain ⟨fs, hpend, hfs⟩ := hs.held
  refine ⟨⟨fs, hpend, hgenuine hfs ?_⟩, hgenuine hs.wire fun hsettled => hsettled.2.1, ?_, le_refl _⟩
  · intro hsettled f hf
    -- Nothing is carried over.
    have hnil : stream fs = [] := by
      rw [← hpend, Host.pend, hsettled.1]
      rfl
    have hfs' : fs = [] := by
      have hsplit := split_stream fs
      rw [hnil, split_incomplete incomplete_nil] at hsplit
      exact (congrArg Prod.fst hsplit).symm
    rw [hfs'] at hf
    cases hf
  · intro hsettled j packet hj hpacket hcmd
    exact absurd hcmd (hsettled.2.2 j packet hj hpacket)

/-- A command begins. -/
theorem Streams.ask (hs : Streams c strict s.sent.length s) (hlentx : s.host.lentx = 0)
    (hcnt : s.host.waitCnt.toNat ≤ 3) : Progress c strict s.sent.length (s.ask c) where
  streams := ⟨hs.held, hs.wire, hs.pending, hs.le_sent⟩
  waits := ⟨hcnt, fun hset => hset.elim, fun hset => hset.elim⟩
  course := ⟨⟨Window.read_copyTo s.host.buftx 1 (c.cmd :: c.data), rfl⟩, hlentx, rfl⟩
  ended := fun hui => by cases hui

theorem Progress.lentx_of_ready (h : Progress c strict n s) (hready : s.Ready) :
    s.host.lentx = 0 := by
  rcases h.course.lentx with hzero | ⟨⟨x, hui⟩, -⟩
  · exact hzero
  · rcases hready with hidle | ⟨result, hdone⟩
    · rw [hidle] at hui
      cases hui
    · rw [hdone] at hui
      cases hui

/-- A machine that is reached is in the course of some command. -/
theorem Reachable.progress (hs : Reachable s) : ∃ c n, Progress c False n s := by
  induction hs with
  | start =>
      let c : Command := ⟨0, [], by decide, by decide, by decide⟩
      exact ⟨c, 0, Reachable.start.streams c, ⟨Nat.zero_le _, fun hset => hset.elim,
        fun hset => hset.elim⟩, rfl, fun hui => by cases hui⟩
  | step _ e ih =>
      obtain ⟨c, n, h⟩ := ih
      exact ⟨c, n, h.step e⟩
  | @ask s hs hready c ih =>
      obtain ⟨c₀, n, h⟩ := ih
      obtain ⟨hheld, hwire, -, -⟩ := hs.streams c
      have hstreams : Streams c False s.sent.length s :=
        ⟨hheld.imp fun fs hfs => ⟨hfs.1, hfs.2.1, fun f hf hcmd => ?_⟩,
          ⟨hwire.1, fun f hf hcmd => ?_⟩, fun hfalse => hfalse.elim, le_refl _⟩
      · exact ⟨c, _, hstreams.ask (h.lentx_of_ready hready) h.waits.cnt⟩
      · obtain ⟨j, packet, d, hj, hd, hreply, -⟩ := hfs.2.2 f hf hcmd
        exact ⟨j, packet, d, hj, hd, hreply, fun hfalse => hfalse.elim⟩
      · obtain ⟨j, packet, d, hj, hd, hreply, -⟩ := hwire.2 f hf hcmd
        exact ⟨j, packet, d, hj, hd, hreply, fun hfalse => hfalse.elim⟩

/-- When `ReadBlk` returns true, `lenrx` and `bufrx` hold the payload of the frame with which the
device answered a packet with the same command, in the state it was in when it answered it.
The packet was sent no later than the one asked for, and is that very packet if the machine was
settled when the command began. -/
theorem readBlk_reply (hs : Reachable s) (hready : s.Ready) (c : Command) (es : List Event)
    (hdone : (run Link.step es (s.ask c)).ui = .done true) :
    let s' := run Link.step es (s.ask c)
    s'.sent[s.sent.length]? = some c.bytes ∧
      ∃ j packet d f, j ≤ s.sent.length ∧ s'.sent[j]? = some packet ∧
        packet.getD 1 0 = c.cmd ∧ s'.answers[j]? = some d ∧
        (decodePacket packet d).2 = some f ∧
        s'.host.lenrx = f.payload.length ∧
        Window.read s'.host.bufrx 0 f.payload.length = f.payload ∧
        (Settled c s → j = s.sent.length) := by
  intro s'
  obtain ⟨c₀, n, h⟩ := hs.progress
  have hprogress := ((hs.streams c).settled.ask (h.lentx_of_ready hready) h.waits.cnt).run es
  obtain ⟨-, hwaits, hcourse, hended⟩ := hprogress
  obtain ⟨hzero, hlow⟩ := hended hdone
  have hset : (run Link.step es (s.ask c)).ui.cntSet := by
    rw [hdone]
    rfl
  obtain ⟨f, ⟨j, packet, d, hj, hd, hreply, hstrict⟩, hcmd, hlen, hbuf⟩ := hwaits.taken hset hzero hlow
  have hsent : Sent c s.sent.length s' := by
    unfold Course at hcourse
    rw [hdone] at hcourse
    exact hcourse.2
  have hlt : j < s'.sent.length := (List.getElem?_eq_some_iff.mp hj).1
  have hle : j ≤ s.sent.length := by
    rw [hsent.1] at hlt
    exact Nat.lt_succ_iff.mp hlt
  have hlow' : f.cmd &&& 0x80 = 0 := by
    rw [hcmd]
    exact c.low
  exact ⟨hsent.2, j, packet, d, f, hle, hj, ((decodePacket_reply hreply).1 hlow').trans hcmd, hd,
    hreply, hlen, hbuf, fun hsettled => le_antisymm hle (hstrict hsettled)⟩

end Course

/-! ## A late reply -/

/-- The command that starts or stops sampling on channel 0. -/
def configCommand (mode : UInt8) : Command :=
  ⟨cmdDevCad, mode :: 0 :: u32Bytes 0, by decide, by decide, by simp⟩

/-- The device's reply to it. -/
def configReply (mode : UInt8) : Frame := ⟨cmdDevCad, mode :: 0 :: u32Bytes 0, by simp⟩

theorem decodePacket_config (mode : UInt8) (d : Device) :
    (decodePacket (configCommand mode).bytes d).2 = some (configReply mode) := by
  have hbytes : (configCommand mode).bytes = 6 :: cmdDevCad :: mode :: 0 :: u32Bytes 0 := rfl
  have hrequest : request (6 :: cmdDevCad :: mode :: 0 :: u32Bytes 0) =
      some (Frame.ofHead 6 cmdDevCad (mode :: 0 :: u32Bytes 0)) := rfl
  rw [hbytes, decodePacket, hrequest]
  show some (cmdDecode (Frame.ofHead 6 cmdDevCad (mode :: 0 :: u32Bytes 0)) d).2 = _
  rw [Host.cmdDecode_config]
  rfl

/-- The user interface sends the command, and the thread writes it. -/
def sendEvents : List Event :=
  [.ui, .ui, .ui, .ui, .ui, .query (some 8) 0 [] (some 0), .ui]

/-- A start command whose reply is late: `ReadBlk` gives up. -/
def timedOut : Link :=
  run Link.step (sendEvents ++ [.ui, .ui, .ui, .ui, .ui, .ui]) (ask (configCommand 1) {})

/-- A stop command, behind which the device gets round to the start command. -/
def lateEvents (d : Device) : List Event := sendEvents ++ [.query none 0 [d] (some 1), .ui]

theorem timedOut_reachable : Reachable timedOut ∧ timedOut.Ready := by
  have hrun : ∀ (es : List Event) {s : Link}, Reachable s → Reachable (run Link.step es s) := by
    intro es
    induction es with
    | nil => exact fun hs => hs
    | cons e es ih => exact fun hs => ih (hs.step e)
  exact ⟨hrun _ (.ask .start (.inl rfl) _), .inr ⟨false, rfl⟩⟩

/-- The stop command ends with the reply to the start command. -/
theorem late_done (d : Device) :
    (run Link.step (lateEvents d) (timedOut.ask (configCommand 0))).ui = .done true ∧
      (run Link.step (lateEvents d) (timedOut.ask (configCommand 0))).sent =
        [(configCommand 1).bytes, (configCommand 0).bytes] ∧
      Window.read (run Link.step (lateEvents d) (timedOut.ask (configCommand 0))).host.bufrx 0 6 =
        (configReply 1).payload := by
  rw [lateEvents, run_append]
  generalize hs : run Link.step sendEvents (timedOut.ask (configCommand 0)) = s
  have hui : s.ui = .reading 0 := by rw [← hs]; rfl
  have hsent : s.sent = [(configCommand 1).bytes, (configCommand 0).bytes] := by rw [← hs]; rfl
  have hans : s.answers = [] := by rw [← hs]; rfl
  have hwire : s.wire = [] := by rw [← hs]; rfl
  have hid : s.host.waitId = cmdDevCad := by rw [← hs]; rfl
  have hcnt : 0 < s.host.waitCnt := by rw [← hs]; exact show (0 : UInt32) < 1 by decide
  have hidx : s.host.idxBufcom = 0 := by rw [← hs]; rfl
  have hlentx : s.host.lentx = 0 := by rw [← hs]; rfl
  have hpurge : s.host.purgeCom = false := by rw [← hs]; rfl
  clear hs
  let g : Host.Awaiting cmdDevCad := ⟨s.host, hid, hcnt, hidx⟩
  have hfits : (configReply 1).bytes.length ≤ buffSize := by decide
  obtain ⟨hzero, hread, hlen, hbuf⟩ := g.take_reply none (configReply 1) rfl (by decide) (by decide)
    (by decide) (by decide) hfits
  -- The device answers the start command, and the reply arrives at once.
  have hanswer : s.answer d = { s with answers := [d], wire := [configReply 1] } := by
    have hpacket : s.sent[s.answered]? = some (configCommand 1).bytes := by
      rw [answered, hans, hsent]
      rfl
    rw [answer, hpacket]
    simp only [decodePacket_config, hwire, hans]
    rfl
  have harrived : arrived 1 [configReply 1] = ⟨(configReply 1).bytes, hfits⟩ := rfl
  have hdeliver : s.deliver none = s.sent := by rw [deliver, if_neg (by simp)]
  have hwire' : s.purgeWire 0 = s.wire := by rw [purgeWire, hpurge]; rfl
  have hquery : s.query none 0 [d] (some 1) =
      { s with answers := [d], wire := [], host := g.take none ⟨(configReply 1).bytes, hfits⟩ } := by
    unfold query
    rw [hdeliver, hwire']
    simp only [List.foldl_cons, List.foldl_nil]
    rw [show ({ s with sent := s.sent, wire := s.wire } : Link) = s from rfl, hanswer]
    rfl
  have hstep : uiStep (s.query none 0 [d] (some 1)) =
      { s.query none 0 [d] (some 1) with ui := .done true } := by
    rw [hquery]
    unfold uiStep
    simp only [hui, hzero, hread, ne_eq, not_true_eq_false, if_false]
  have hrun : run Link.step [.query none 0 [d] (some 1), .ui] s =
      uiStep (s.query none 0 [d] (some 1)) := rfl
  rw [hrun, hstep, hquery]
  exact ⟨rfl, hsent, hbuf⟩

theorem readBlk_reply_late :
    let s' := run Link.step (lateEvents (Device.boot fun _ => 0)) (timedOut.ask (configCommand 0))
    s'.sent[timedOut.sent.length]? = some (configCommand 0).bytes ∧
      ∃ j packet d f, j ≤ timedOut.sent.length ∧ s'.sent[j]? = some packet ∧
        packet.getD 1 0 = cmdDevCad ∧ s'.answers[j]? = some d ∧
        (decodePacket packet d).2 = some f ∧
        s'.host.lenrx = f.payload.length ∧
        Window.read s'.host.bufrx 0 f.payload.length = f.payload ∧
        (Settled (configCommand 0) timedOut → j = timedOut.sent.length) :=
  readBlk_reply timedOut_reachable.1 timedOut_reachable.2 (configCommand 0) _ (late_done _).1

/-- The reply to the start command is handed over as that to the stop command. -/
theorem readBlk_reply_stale :
    ¬ ∀ (s : Link) (c : Command) (es : List Event), Reachable s → s.Ready →
      (run Link.step es (s.ask c)).ui = .done true →
      let s' := run Link.step es (s.ask c)
      ∃ packet d f, s'.sent[s.sent.length]? = some packet ∧ (decodePacket packet d).2 = some f ∧
        s'.host.lenrx = f.payload.length ∧
        Window.read s'.host.bufrx 0 f.payload.length = f.payload := by
  intro hall
  obtain ⟨hdone, hsent, hbuf⟩ := late_done (Device.boot fun _ => 0)
  obtain ⟨packet, d, f, hpacket, hreply, -, hread⟩ :=
    hall timedOut (configCommand 0) _ timedOut_reachable.1 timedOut_reachable.2 hdone
  rw [hsent] at hpacket
  have hpacket' : (configCommand 0).bytes = packet := Option.some.inj hpacket
  rw [← hpacket', decodePacket_config] at hreply
  obtain rfl : configReply 0 = f := Option.some.inj hreply
  have hsame : (configReply 1).payload = (configReply 0).payload := hbuf.symm.trans hread
  exact absurd hsame (by decide)

end Link
