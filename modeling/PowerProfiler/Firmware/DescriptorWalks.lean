-- SUMMARY: What the walks of usbd_core.c find in the table of any device, and the table of the profiler.
import PowerProfiler.Firmware.Descriptors

/-!
# What the walks find

Each walk stops at every descriptor of the table once. So `usbd_get_descriptor` finds what
the tree has under the type and the index, and the two others open the endpoints that the
tree has below the configuration, or below the interface.
-/

open Records

/-! ## Fields -/

theorem u16_bytes (w : UInt16) : w.toUInt8.toUInt16 ||| ((w >>> 8).toUInt8.toUInt16 <<< 8) = w := by
  have h := w.toNat_lt
  have hlow : w.toUInt8.toUInt16.toNat = w.toNat % 256 := by simp
  have hhigh : ((w >>> 8).toUInt8.toUInt16 <<< 8).toNat = (w.toNat / 256) <<< 8 := by
    simp [Nat.shiftLeft_eq, Nat.shiftRight_eq_div_pow]
    omega
  rw [← UInt16.toNat_inj, UInt16.toNat_or, hlow, hhigh,
    Bytes.or_shiftLeft (show w.toNat % 256 < 2 ^ 8 by omega)]
  omega

theorem Endpoint.cfg_eq (e : Endpoint) (rest : List UInt8) :
    endpointCfg (e.record.bytes ++ rest) = e.cfg := by
  have hmps : u16At (e.record.bytes ++ rest) 4 = e.wMaxPacketSize := u16_bytes e.wMaxPacketSize
  unfold endpointCfg
  rw [hmps]
  rfl

/-! ## Finding a descriptor -/

theorem findDescriptor_eq {type index : UInt8} {ps : List (List UInt8)} {cur : Nat}
    (h : cur ≤ index.toNat) :
    findDescriptor type index cur ps = (ps.filter (hasTag type))[index.toNat - cur]? := by
  induction ps generalizing cur with
  | nil => rfl
  | cons p ps ih =>
      unfold findDescriptor
      split
      next htag =>
        rw [List.filter_cons_of_pos htag]
        split
        next heq => rw [heq, Nat.sub_self, List.getElem?_cons_zero]
        next hne =>
          have hlt : cur < index.toNat := Nat.lt_of_le_of_ne h hne
          obtain ⟨n, hn⟩ : ∃ n, index.toNat - cur = n + 1 :=
            Nat.exists_eq_succ_of_ne_zero (Nat.sub_ne_zero_of_lt hlt)
          rw [ih hlt, hn, List.getElem?_cons_succ, Nat.sub_succ, hn, Nat.pred_succ]
      next htag =>
        rw [List.filter_cons_of_neg htag]
        exact ih h

@[simp] theorem Endpoint.record_tag (e : Endpoint) : e.record.tag = usbDescriptorTypeEndpoint := rfl

@[simp] theorem Interface.head_tag (i : Interface) : i.head.tag = usbDescriptorTypeInterface := rfl

@[simp] theorem Configuration.head_tag (c : Configuration) :
    c.head.tag = usbDescriptorTypeConfiguration := rfl

theorem OtherRecord.tag_ne (o : OtherRecord) {t : UInt8} (ht : t ≤ usbDescriptorTypeEndpoint) :
    o.1.tag ≠ t :=
  fun h => UInt8.not_lt.mpr ht (h ▸ o.2)

namespace Interface

theorem tag_ne (i : Interface) {t : UInt8} (ht : t < usbDescriptorTypeInterface) :
    ∀ r ∈ i.records, r.tag ≠ t := by
  intro r hr
  rcases List.mem_cons.mp hr with rfl | hr
  · rw [head_tag]
    exact (UInt8.ne_of_lt ht).symm
  rcases List.mem_append.mp hr with hr | hr
  · obtain ⟨o, -, rfl⟩ := List.mem_map.mp hr
    exact OtherRecord.tag_ne o (UInt8.le_of_lt (UInt8.lt_trans ht (by decide)))
  · obtain ⟨e, -, rfl⟩ := List.mem_map.mp hr
    rw [Endpoint.record_tag]
    exact (UInt8.ne_of_lt (UInt8.lt_trans ht (by decide))).symm

end Interface

namespace Configuration

theorem inner_tag_ne (c : Configuration) {t : UInt8} (ht : t < usbDescriptorTypeInterface) :
    ∀ r ∈ c.inner, r.tag ≠ t := by
  intro r hr
  rcases List.mem_append.mp hr with hr | hr
  · obtain ⟨o, -, rfl⟩ := List.mem_map.mp hr
    exact OtherRecord.tag_ne o (UInt8.le_of_lt (UInt8.lt_trans ht (by decide)))
  · obtain ⟨i, -, hr⟩ := List.mem_flatMap.mp hr
    exact i.tag_ne ht r hr

theorem bytes_eq (c : Configuration) : c.bytes = c.head.bytes ++ flat c.inner := List.flatMap_cons

/-- The total length in the descriptor is the length of all that follows it. -/
theorem u16At_total (c : Configuration) (rest : List UInt8) :
    (u16At (c.bytes ++ rest) 2).toNat = c.bytes.length := by
  have hfield : u16At (c.bytes ++ rest) 2 = c.wTotalLength := by
    rw [bytes_eq, List.append_assoc]
    exact u16_bytes c.wTotalLength
  have hlen : c.bytes.length = 9 + (flat c.inner).length := by
    rw [bytes_eq, List.length_append]
    rfl
  rw [hfield, hlen]
  exact Nat.mod_eq_of_lt c.length_lt

/-- From each configuration descriptor on, the total length covers the configuration. -/
theorem stops_window (cs : List Configuration) (rest : List UInt8) :
    ((stops (cs.flatMap records) rest).filter (hasTag usbDescriptorTypeConfiguration)).map
        (fun p => window p (u16At p 2).toNat) = cs.map fun c => some c.bytes := by
  induction cs with
  | nil => rfl
  | cons c cs ih =>
      have hhead : ∀ R, hasTag usbDescriptorTypeConfiguration (c.head.bytes ++ R) = true := by
        intro R
        rw [hasTag, Record.tagAt_append, head_tag]
        decide
      have hbytes : ∀ R, c.head.bytes ++ (flat c.inner ++ R) = c.bytes ++ R := by
        intro R
        rw [bytes_eq, List.append_assoc]
      rw [List.flatMap_cons, stops_append, List.filter_append, List.map_append, ih, records, stops,
        List.filter_cons_of_pos (hhead _), filter_stops_nil (c.inner_tag_ne (by decide)),
        hbytes, List.map_cons, List.map_nil, u16At_total, window_append]
      rfl

end Configuration

namespace Descriptors

variable (d : Descriptors)

theorem stops_records : stops d.records [0] =
    (d.device.val.bytes ++ (flat (d.configurations.flatMap Configuration.records ++
      d.strings.map Subtype.val) ++ [0])) ::
      (stops (d.configurations.flatMap Configuration.records) (flat (d.strings.map Subtype.val) ++ [0]) ++
        stops (d.strings.map Subtype.val) [0]) := by
  rw [records, stops, stops_append]

theorem configuration_tag_ne {t : UInt8} (ht : t < usbDescriptorTypeInterface)
    (hne : t ≠ usbDescriptorTypeConfiguration) :
    ∀ r ∈ d.configurations.flatMap Configuration.records, r.tag ≠ t := by
  intro r hr
  obtain ⟨c, -, hr⟩ := List.mem_flatMap.mp hr
  rcases List.mem_cons.mp hr with rfl | hr
  · rw [Configuration.head_tag]
    exact hne.symm
  · exact c.inner_tag_ne ht r hr

theorem string_tag : ∀ r ∈ d.strings.map Subtype.val, r.tag = usbDescriptorTypeString := by
  intro r hr
  obtain ⟨s, -, rfl⟩ := List.mem_map.mp hr
  exact s.2

theorem hasTag_device (t : UInt8) (rest : List UInt8) :
    hasTag t (d.device.val.bytes ++ rest) = (usbDescriptorTypeDevice == t) := by
  rw [hasTag, Record.tagAt_append, d.device.2]

/-- The stops with a type, with the bytes that each stands for. -/
theorem windows_device :
    ((pointers d.bytes).filter (hasTag usbDescriptorTypeDevice)).map
        (fun p => window p (p.getD 0 0).toNat) = [some d.device.val.bytes] := by
  have hstrings : ∀ r ∈ d.strings.map Subtype.val, r.tag ≠ usbDescriptorTypeDevice := by
    intro r hr
    rw [d.string_tag r hr]
    decide
  have hone := Records.stops_window [d.device.val]
    (flat (d.configurations.flatMap Configuration.records ++ d.strings.map Subtype.val) ++ [0])
  rw [bytes, pointers_table, stops_records, List.filter_cons_of_pos (d.hasTag_device _ _),
    List.filter_append, filter_stops_nil (d.configuration_tag_ne (by decide) (by decide)),
    filter_stops_nil hstrings]
  exact hone

theorem windows_configuration :
    ((pointers d.bytes).filter (hasTag usbDescriptorTypeConfiguration)).map
        (fun p => window p (u16At p 2).toNat) = d.configurations.map fun c => some c.bytes := by
  have hdevice : ∀ R, ¬ hasTag usbDescriptorTypeConfiguration (d.device.val.bytes ++ R) = true := by
    intro R
    rw [d.hasTag_device]
    decide
  have hstrings : ∀ r ∈ d.strings.map Subtype.val, r.tag ≠ usbDescriptorTypeConfiguration := by
    intro r hr
    rw [d.string_tag r hr]
    decide
  rw [bytes, pointers_table, stops_records, List.filter_cons_of_neg (hdevice _),
    List.filter_append, filter_stops_nil hstrings, List.append_nil, Configuration.stops_window]

theorem windows_string :
    ((pointers d.bytes).filter (hasTag usbDescriptorTypeString)).map
        (fun p => window p (p.getD 0 0).toNat) = d.strings.map fun r => some r.val.bytes := by
  have hdevice : ∀ R, ¬ hasTag usbDescriptorTypeString (d.device.val.bytes ++ R) = true := by
    intro R
    rw [d.hasTag_device]
    decide
  rw [bytes, pointers_table, stops_records, List.filter_cons_of_neg (hdevice _),
    List.filter_append, filter_stops_nil (d.configuration_tag_ne (by decide) (by decide)), List.nil_append,
    filter_stops_self d.string_tag, Records.stops_window, List.map_map]
  rfl

/-- No descriptor has the reserved type. -/
theorem windows_reserved : (pointers d.bytes).filter (hasTag 0) = [] := by
  have hdevice : ∀ R, ¬ hasTag 0 (d.device.val.bytes ++ R) = true := by
    intro R
    rw [d.hasTag_device]
    decide
  have hstrings : ∀ r ∈ d.strings.map Subtype.val, r.tag ≠ 0 := by
    intro r hr
    rw [d.string_tag r hr]
    decide
  rw [bytes, pointers_table, stops_records, List.filter_cons_of_neg (hdevice _),
    List.filter_append, filter_stops_nil hstrings,
    filter_stops_nil (d.configuration_tag_ne (by decide) (by decide))]
  rfl

/-- What `usbd_get_descriptor` finds, by the stops of its type. -/
theorem find_window (type index : UInt8) (len : List UInt8 → Nat) :
    ((findDescriptor type index 0 (pointers d.bytes)).map fun p => (p, len p)).map
        (fun r => window r.1 r.2) =
      (((pointers d.bytes).filter (hasTag type)).map fun p => window p (len p))[index.toNat]? := by
  rw [findDescriptor_eq (Nat.zero_le _), Nat.sub_zero, Option.map_map, List.getElem?_map]
  rfl

/-- A type of the table. -/
theorem usbdGetDescriptor_of_type {type index : UInt8}
    (htype : type = usbDescriptorTypeDevice ∨ type = usbDescriptorTypeConfiguration ∨
      type = usbDescriptorTypeString ∧ index ≠ usbOsdescStringDescIndex) {typeIndex : UInt16}
    (ht : (typeIndex >>> 8).toUInt8 = type) (hi : typeIndex.toUInt8 = index) :
    (usbdGetDescriptor d.bytes typeIndex).map (fun r => window r.1 r.2) =
      (((pointers d.bytes).filter (hasTag type)).map fun p =>
        window p (if type = usbDescriptorTypeConfiguration then (u16At p 2).toNat
          else (p.getD 0 0).toNat))[index.toNat]? := by
  have hos : ¬ (type = usbDescriptorTypeString ∧ index = usbOsdescStringDescIndex) := by
    rcases htype with rfl | rfl | ⟨rfl, hne⟩
    · exact fun h => absurd h.1 (by decide)
    · exact fun h => absurd h.1 (by decide)
    · exact fun h => hne h.2
  have hbos : type ≠ usbDescriptorTypeBinaryObjectStore := by
    rcases htype with rfl | rfl | ⟨rfl, -⟩ <;> decide
  have hinvalid : ¬ (type = usbDescriptorTypeInterface ∨ type = usbDescriptorTypeEndpoint ∨
      usbDescriptorTypeEndpoint < type) := by
    rcases htype with rfl | rfl | ⟨rfl, -⟩ <;> decide
  have hspeed : ∀ p : List UInt8,
      (if type = usbDescriptorTypeConfiguration ∨ type = usbDescriptorTypeOtherSpeed then
        (u16At p 2).toNat else (p.getD 0 0).toNat) =
      if type = usbDescriptorTypeConfiguration then (u16At p 2).toNat else (p.getD 0 0).toNat := by
    intro p
    rcases htype with rfl | rfl | ⟨rfl, -⟩ <;> rfl
  unfold usbdGetDescriptor
  dsimp only
  rw [ht, hi, if_neg hos, if_neg hbos, if_neg hinvalid, find_window]
  simp only [hspeed]

/-- Of the types that the table does not have only 0 passes the checks. -/
theorem reserved_eq_zero {type : UInt8} (hdevice : type ≠ usbDescriptorTypeDevice)
    (hconfiguration : type ≠ usbDescriptorTypeConfiguration) (hstring : type ≠ usbDescriptorTypeString)
    (hvalid : ¬ (type = usbDescriptorTypeInterface ∨ type = usbDescriptorTypeEndpoint ∨
      usbDescriptorTypeEndpoint < type)) : type = 0 := by
  have h1 := mt UInt8.toNat_inj.mp hdevice
  have h2 := mt UInt8.toNat_inj.mp hconfiguration
  have h3 := mt UInt8.toNat_inj.mp hstring
  have h4 := mt UInt8.toNat_inj.mp fun h => hvalid (.inl h)
  have h5 := mt UInt8.toNat_inj.mp fun h => hvalid (.inr (.inl h))
  have h6 := mt UInt8.lt_iff_toNat_lt.mpr fun h => hvalid (.inr (.inr h))
  change type.toNat ≠ 1 at h1
  change type.toNat ≠ 2 at h2
  change type.toNat ≠ 3 at h3
  change type.toNat ≠ 4 at h4
  change type.toNat ≠ 5 at h5
  change ¬ 5 < type.toNat at h6
  exact UInt8.toNat_inj.mp (show type.toNat = 0 by omega)

/-- Another type. -/
theorem usbdGetDescriptor_other {type : UInt8} (hdevice : type ≠ usbDescriptorTypeDevice)
    (hconfiguration : type ≠ usbDescriptorTypeConfiguration) (hstring : type ≠ usbDescriptorTypeString)
    {typeIndex : UInt16} (ht : (typeIndex >>> 8).toUInt8 = type) :
    (usbdGetDescriptor d.bytes typeIndex).map (fun r => window r.1 r.2) = none := by
  unfold usbdGetDescriptor
  dsimp only
  rw [ht, if_neg fun h => hstring h.1]
  split
  · rfl
  split
  · rfl
  next hvalid =>
    rw [find_window, reserved_eq_zero hdevice hconfiguration hstring hvalid, windows_reserved]
    rfl

/-- For every device, type and index: `usbd_get_descriptor` on the device's table finds what
the tree has there, all of it inside of the table, and nothing where the tree has nothing. -/
theorem usbdGetDescriptor_lookup (typeIndex : UInt16) :
    (usbdGetDescriptor d.bytes typeIndex).map (fun r => window r.1 r.2) =
      (d.lookup (typeIndex >>> 8).toUInt8 typeIndex.toUInt8).map some := by
  generalize ht : (typeIndex >>> 8).toUInt8 = type
  generalize hi : typeIndex.toUInt8 = index
  unfold lookup
  split
  next hdevice =>
    rw [d.usbdGetDescriptor_of_type (.inl hdevice) ht hi, hdevice]
    simp only [show usbDescriptorTypeDevice ≠ usbDescriptorTypeConfiguration by decide, if_false]
    rw [windows_device]
    split
    next hzero => rw [hzero]; rfl
    next hzero =>
      have hpos : 1 ≤ index.toNat :=
        Nat.pos_of_ne_zero fun h0 => hzero (UInt8.toNat_inj.mp h0)
      exact List.getElem?_eq_none hpos
  split
  next hconfiguration =>
    rw [d.usbdGetDescriptor_of_type (.inr (.inl hconfiguration)) ht hi, hconfiguration]
    simp only [if_true]
    rw [windows_configuration, List.getElem?_map, Option.map_map]
    rfl
  split
  next hstring =>
    split
    next hos =>
      unfold usbdGetDescriptor
      dsimp only
      rw [ht, hi, if_pos ⟨hstring, hos⟩]
      rfl
    next hos =>
      rw [d.usbdGetDescriptor_of_type (.inr (.inr ⟨hstring, hos⟩)) ht hi, hstring]
      simp only [show usbDescriptorTypeString ≠ usbDescriptorTypeConfiguration by decide, if_false]
      rw [windows_string, List.getElem?_map, Option.map_map]
      rfl
  next hdevice hconfiguration hstring =>
    exact d.usbdGetDescriptor_other hdevice hconfiguration hstring ht

end Descriptors

/-! ## Opening endpoints -/

/-- The core takes no notice of the record. -/
def Ignored (r : Record) : Prop :=
  r.tag ≠ usbDescriptorTypeConfiguration ∧ r.tag ≠ usbDescriptorTypeInterface ∧
    r.tag ≠ usbDescriptorTypeEndpoint

theorem OtherRecord.ignored (o : OtherRecord) : Ignored o.1 :=
  ⟨tag_ne o (by decide), tag_ne o (by decide), tag_ne o (by decide)⟩

namespace Descriptors

/-- The records of the tree are heads, endpoints or ignored. -/
theorem mem_records {d : Descriptors} {r : Record} (hr : r ∈ d.records) :
    (∃ c : Configuration, r = c.head) ∨ (∃ i : Interface, r = i.head) ∨
      (∃ e : Endpoint, r = e.record) ∨ Ignored r := by
  rcases List.mem_cons.mp hr with rfl | hr
  · right; right; right
    unfold Ignored
    rw [d.device.2]
    decide
  rcases List.mem_append.mp hr with hr | hr
  · obtain ⟨c, -, hr⟩ := List.mem_flatMap.mp hr
    rcases List.mem_cons.mp hr with rfl | hr
    · exact .inl ⟨c, rfl⟩
    rcases List.mem_append.mp hr with hr | hr
    · obtain ⟨o, -, rfl⟩ := List.mem_map.mp hr
      exact .inr (.inr (.inr (OtherRecord.ignored o)))
    obtain ⟨i, -, hr⟩ := List.mem_flatMap.mp hr
    rcases List.mem_cons.mp hr with rfl | hr
    · exact .inr (.inl ⟨i, rfl⟩)
    rcases List.mem_append.mp hr with hr | hr
    · obtain ⟨o, -, rfl⟩ := List.mem_map.mp hr
      exact .inr (.inr (.inr (OtherRecord.ignored o)))
    · obtain ⟨e, -, rfl⟩ := List.mem_map.mp hr
      exact .inr (.inr (.inl ⟨e, rfl⟩))
  · right; right; right
    unfold Ignored
    rw [d.string_tag r hr]
    decide

end Descriptors

/-- A loop body that takes notice of heads and endpoints alone, and of no byte behind them. -/
structure Reads {σ : Type} (f : σ → List UInt8 → σ) : Prop where
  configuration : ∀ (c : Configuration) s rest, f s (c.head.bytes ++ rest) = f s c.head.bytes
  interface : ∀ (i : Interface) s rest, f s (i.head.bytes ++ rest) = f s i.head.bytes
  endpoint : ∀ (e : Endpoint) s rest, f s (e.record.bytes ++ rest) = f s e.record.bytes
  ignored : ∀ r, Ignored r → ∀ s rest, f s (r.bytes ++ rest) = s

namespace Reads

variable {σ : Type} {f : σ → List UInt8 → σ} (h : Reads f)
include h

theorem visit_ignored (s : σ) {rs : List Record} (hrs : ∀ r ∈ rs, Ignored r) : visit f s rs = s := by
  apply visit_unchanged
  intro r hr
  have hone := h.ignored r (hrs r hr) s []
  rwa [List.append_nil] at hone

theorem visit_others (s : σ) (os : List OtherRecord) : visit f s (os.map Subtype.val) = s := by
  apply h.visit_ignored
  intro r hr
  obtain ⟨o, -, rfl⟩ := List.mem_map.mp hr
  exact OtherRecord.ignored o

/-- The loop goes through the configurations. -/
theorem foldl_pointers (d : Descriptors) (s : σ) :
    (pointers d.bytes).foldl f s = visit f s (d.configurations.flatMap Configuration.records) := by
  have hbody : ∀ r ∈ d.records, ∀ s rest, f s (r.bytes ++ rest) = f s r.bytes := by
    intro r hr s rest
    rcases Descriptors.mem_records hr with ⟨c, rfl⟩ | ⟨i, rfl⟩ | ⟨e, rfl⟩ | hignored
    · exact h.configuration c s rest
    · exact h.interface i s rest
    · exact h.endpoint e s rest
    · have hnone := h.ignored r hignored s []
      rw [List.append_nil] at hnone
      rw [h.ignored r hignored, hnone]
  have hrecords : d.records = [d.device.val] ++ (d.configurations.flatMap Configuration.records ++
      d.strings.map Subtype.val) := rfl
  have hdevice : ∀ r ∈ [d.device.val], Ignored r := by
    intro r hr
    rw [List.mem_singleton.mp hr]
    unfold Ignored
    rw [d.device.2]
    decide
  have hstrings : ∀ r ∈ d.strings.map Subtype.val, Ignored r := by
    intro r hr
    unfold Ignored
    rw [d.string_tag r hr]
    decide
  rw [Descriptors.bytes, pointers_table, foldl_stops hbody, hrecords, visit_append, visit_append,
    h.visit_ignored s hdevice, h.visit_ignored _ hstrings]

end Reads

/-- Results one behind the other: the last one counts. -/
def lastResult (result : Bool) (results : List Bool) : Bool := results.foldl (fun _ r => r) result

theorem lastResult_append (result : Bool) (rs rs' : List Bool) :
    lastResult result (rs ++ rs') = lastResult (lastResult result rs) rs' := List.foldl_append

theorem interfaceCfgs_cons (alt : UInt8) (i : Interface) (is : List Interface) :
    interfaceCfgs alt (i :: is) =
      (if i.bAlternateSetting = alt then i.endpoints.map Endpoint.cfg else []) ++
        interfaceCfgs alt is := by
  unfold interfaceCfgs
  by_cases halt : i.bAlternateSetting = alt
  · simp [halt]
  · simp [halt]

/-! ### A configuration -/

section Configure

variable (v alt : UInt8) (s : ConfigurationWalk)

theorem setConfigurationStep_endpoint (e : Endpoint) (rest : List UInt8) :
    setConfigurationStep v alt s (e.record.bytes ++ rest) =
      if s.curConfig = v ∧ s.curAltSetting = alt then
        { s with found := usbdSetEndpoint e.cfg, opened := s.opened ++ [e.cfg] }
      else s := by
  have htag : tagAt (e.record.bytes ++ rest) = usbDescriptorTypeEndpoint := rfl
  unfold setConfigurationStep
  rw [htag, if_neg (by decide), if_neg (by decide), if_pos rfl, e.cfg_eq]
  by_cases hboth : s.curConfig = v ∧ s.curAltSetting = alt
  · rw [if_pos hboth, if_neg (not_or.mpr ⟨not_not.mpr hboth.1, not_not.mpr hboth.2⟩)]
  · rw [if_neg hboth, if_pos (not_and_or.mp hboth)]

theorem setConfigurationStep_reads : Reads (setConfigurationStep v alt) where
  configuration _ _ _ := rfl
  interface _ _ _ := rfl
  endpoint e s rest := by
    have hbare := setConfigurationStep_endpoint v alt s e []
    rw [List.append_nil] at hbare
    rw [setConfigurationStep_endpoint, hbare]
  ignored r hr s rest := by
    unfold setConfigurationStep
    rw [r.tagAt_append, if_neg hr.1, if_neg hr.2.1, if_neg hr.2.2]

/-- The walk behind opening endpoints. -/
def ConfigurationWalk.opens (cfgs : List EndpointCfg) (s : ConfigurationWalk) : ConfigurationWalk :=
  { s with
    found := lastResult s.found (cfgs.map usbdSetEndpoint)
    opened := s.opened ++ cfgs }

theorem ConfigurationWalk.opens_nil : s.opens [] = s := by
  unfold ConfigurationWalk.opens
  rw [List.append_nil]
  rfl

theorem ConfigurationWalk.opens_append (cfgs cfgs' : List EndpointCfg) :
    s.opens (cfgs ++ cfgs') = (s.opens cfgs).opens cfgs' := by
  unfold ConfigurationWalk.opens
  rw [List.map_append, lastResult_append, List.append_assoc]

theorem setConfiguration_endpoints (es : List Endpoint) :
    visit (setConfigurationStep v alt) s (es.map Endpoint.record) =
      if s.curConfig = v ∧ s.curAltSetting = alt then s.opens (es.map Endpoint.cfg) else s := by
  induction es generalizing s with
  | nil => rw [List.map_nil, List.map_nil, s.opens_nil, ite_self]; rfl
  | cons e es ih =>
      have hone := setConfigurationStep_endpoint v alt s e []
      rw [List.append_nil] at hone
      rw [List.map_cons, List.map_cons, visit_cons, hone, ih]
      by_cases hboth : s.curConfig = v ∧ s.curAltSetting = alt
      · rw [if_pos hboth, if_pos hboth, if_pos hboth]
        exact (s.opens_append [e.cfg] (es.map Endpoint.cfg)).symm
      · rw [if_neg hboth, if_neg hboth, if_neg hboth]

theorem setConfiguration_interface (i : Interface) :
    visit (setConfigurationStep v alt) s i.records =
      { s with curAltSetting := i.bAlternateSetting }.opens
        (if s.curConfig = v ∧ i.bAlternateSetting = alt then i.endpoints.map Endpoint.cfg else []) := by
  have hhead : setConfigurationStep v alt s i.head.bytes =
      { s with curAltSetting := i.bAlternateSetting } := rfl
  rw [Interface.records, visit_cons, hhead, visit_append,
    (setConfigurationStep_reads v alt).visit_others, setConfiguration_endpoints]
  split
  · rfl
  · rw [ConfigurationWalk.opens_nil]

/-- Below a configuration, whatever the last alternate setting is. -/
theorem setConfiguration_interfaces (is : List Interface) :
    ∃ curAlt, visit (setConfigurationStep v alt) s (is.flatMap Interface.records) =
      { s with curAltSetting := curAlt }.opens
        (if s.curConfig = v then interfaceCfgs alt is else []) := by
  induction is generalizing s with
  | nil =>
      refine ⟨s.curAltSetting, ?_⟩
      have hnil : interfaceCfgs alt [] = [] := rfl
      rw [List.flatMap_nil, hnil, ite_self, ConfigurationWalk.opens_nil]
      rfl
  | cons i is ih =>
      rw [List.flatMap_cons, visit_append, setConfiguration_interface]
      obtain ⟨curAlt, hrest⟩ := ih ({ s with curAltSetting := i.bAlternateSetting }.opens
        (if s.curConfig = v ∧ i.bAlternateSetting = alt then i.endpoints.map Endpoint.cfg else []))
      refine ⟨curAlt, hrest.trans ?_⟩
      have hcfgs : (if s.curConfig = v then interfaceCfgs alt (i :: is) else []) =
          (if s.curConfig = v ∧ i.bAlternateSetting = alt then i.endpoints.map Endpoint.cfg else []) ++
            (if s.curConfig = v then interfaceCfgs alt is else []) := by
        rw [interfaceCfgs_cons]
        by_cases hv : s.curConfig = v
        · simp [hv]
        · simp [hv]
      rw [hcfgs, ConfigurationWalk.opens_append]
      rfl

/-- The walk behind the head of a configuration. -/
def ConfigurationWalk.enter (curAlt : UInt8) (c : Configuration) : ConfigurationWalk where
  curAltSetting := curAlt
  curConfig := c.bConfigurationValue
  found := s.found || c.hasValue v
  opened := s.opened

theorem setConfiguration_configuration (c : Configuration) :
    ∃ curAlt, visit (setConfigurationStep v alt) s c.records =
      (s.enter v curAlt c).opens
        (if c.bConfigurationValue = v then c.endpointCfgs alt else []) := by
  have hhead : setConfigurationStep v alt s c.head.bytes = s.enter v s.curAltSetting c := rfl
  rw [Configuration.records, visit_cons, hhead, Configuration.inner, visit_append,
    (setConfigurationStep_reads v alt).visit_others]
  exact setConfiguration_interfaces v alt (s.enter v s.curAltSetting c) c.interfaces

/-- What `usbd_set_configuration` returns for the configurations with the value: that of the last
endpoint below the last of them. -/
def lastFound (alt : UInt8) (found : Bool) (cs : List Configuration) : Bool :=
  lastResult found (cs.map fun c => lastResult true ((c.endpointCfgs alt).map usbdSetEndpoint))

theorem setConfiguration_configurations (cs : List Configuration) :
    ∃ curAlt curConfig, visit (setConfigurationStep v alt) s (cs.flatMap Configuration.records) =
      { curAltSetting := curAlt
        curConfig := curConfig
        found := lastFound alt s.found (cs.filter (Configuration.hasValue v))
        opened := s.opened ++
          (cs.filter (Configuration.hasValue v)).flatMap (Configuration.endpointCfgs alt) } := by
  induction cs generalizing s with
  | nil =>
      refine ⟨s.curAltSetting, s.curConfig, ?_⟩
      rw [List.filter_nil, List.flatMap_nil, List.flatMap_nil, List.append_nil]
      rfl
  | cons c cs ih =>
      rw [List.flatMap_cons, visit_append]
      obtain ⟨curAlt, hone⟩ := setConfiguration_configuration v alt s c
      rw [hone]
      obtain ⟨curAlt', curConfig', hrest⟩ := ih ((s.enter v curAlt c).opens
        (if c.bConfigurationValue = v then c.endpointCfgs alt else []))
      refine ⟨curAlt', curConfig', hrest.trans ?_⟩
      by_cases hv : c.bConfigurationValue = v
      · have hmem : c.hasValue v = true := beq_iff_eq.mpr hv
        have hfound : (s.enter v curAlt c).found = true := by
          unfold ConfigurationWalk.enter
          rw [hmem, Bool.or_true]
        rw [List.filter_cons_of_pos hmem, if_pos hv, List.flatMap_cons, ← List.append_assoc]
        unfold ConfigurationWalk.opens
        rw [hfound]
        rfl
      · have hmem : c.hasValue v = false := beq_eq_false_iff_ne.mpr hv
        have hfound : (s.enter v curAlt c).found = s.found := by
          unfold ConfigurationWalk.enter
          rw [hmem, Bool.or_false]
        rw [List.filter_cons_of_neg (by rw [hmem]; decide), if_neg hv, ConfigurationWalk.opens_nil,
          hfound]
        rfl

end Configure

theorem setConfiguration_table (d : Descriptors) (v alt : UInt8) :
    let chosen := d.configurations.filter (Configuration.hasValue v)
    ∃ curAlt curConfig, (pointers d.bytes).foldl (setConfigurationStep v alt) {} =
      { curAltSetting := curAlt
        curConfig := curConfig
        found := lastFound alt false chosen
        opened := chosen.flatMap (Configuration.endpointCfgs alt) } := by
  intro chosen
  rw [(setConfigurationStep_reads v alt).foldl_pointers]
  exact setConfiguration_configurations v alt {} d.configurations

/-- For every device, value and alternate setting: `usbd_set_configuration` opens just the
endpoints of the interfaces with the alternate setting below the configurations with the
value, in their order, and returns the result of the last one. Without such a configuration
it returns false. -/
theorem usbdSetConfiguration_opens (d : Descriptors) (v alt : UInt8) :
    let chosen := d.configurations.filter (Configuration.hasValue v)
    usbdSetConfiguration d.bytes v alt =
      (lastFound alt false chosen, chosen.flatMap (Configuration.endpointCfgs alt)) := by
  intro chosen
  obtain ⟨curAlt, curConfig, hwalk⟩ := setConfiguration_table d v alt
  unfold usbdSetConfiguration
  dsimp only
  rw [hwalk]

/-! ### An interface -/

section SetInterface

variable (iface alt : UInt8) (s : InterfaceWalk)

def Interface.hasNumber (i : Interface) : Bool := i.bInterfaceNumber == iface

/-- What `usbd_set_interface` gets for the endpoints of the interface: below another alternate
setting they are closed, which succeeds. -/
def Interface.results (i : Interface) : List Bool :=
  i.endpoints.map fun e => i.bAlternateSetting != alt || usbdSetEndpoint e.cfg

/-- The walk behind some endpoints of the interface. -/
def InterfaceWalk.sets (results : List Bool) (cfgs : List EndpointCfg) (s : InterfaceWalk) :
    InterfaceWalk :=
  { s with ret := lastResult s.ret results, opened := s.opened ++ cfgs }

theorem InterfaceWalk.sets_nil : s.sets [] [] = s := by
  unfold InterfaceWalk.sets
  rw [List.append_nil]
  rfl

theorem InterfaceWalk.sets_append (rs rs' : List Bool) (cfgs cfgs' : List EndpointCfg) :
    s.sets (rs ++ rs') (cfgs ++ cfgs') = (s.sets rs cfgs).sets rs' cfgs' := by
  unfold InterfaceWalk.sets
  rw [lastResult_append, List.append_assoc]

theorem setInterfaceStep_endpoint (e : Endpoint) (rest : List UInt8) :
    setInterfaceStep iface alt s (e.record.bytes ++ rest) =
      if s.curIface = iface then
        s.sets [s.curAltSetting != alt || usbdSetEndpoint e.cfg]
          (if s.curAltSetting = alt then [e.cfg] else [])
      else s := by
  have htag : tagAt (e.record.bytes ++ rest) = usbDescriptorTypeEndpoint := rfl
  unfold setInterfaceStep
  rw [htag, if_neg (by decide), if_pos rfl, e.cfg_eq]
  by_cases halt : s.curAltSetting = alt
  · have hresult : (s.curAltSetting != alt || usbdSetEndpoint e.cfg) = usbdSetEndpoint e.cfg := by
      rw [bne_eq_false_iff_eq.mpr halt, Bool.false_or]
    rw [if_neg (not_not.mpr halt), if_pos halt, hresult]
    rfl
  · have hresult : (s.curAltSetting != alt || usbdSetEndpoint e.cfg) = true := by
      rw [bne_iff_ne.mpr halt, Bool.true_or]
    rw [if_pos halt, if_neg halt, hresult, InterfaceWalk.sets, List.append_nil]
    rfl

theorem setInterfaceStep_reads : Reads (setInterfaceStep iface alt) where
  configuration _ _ _ := rfl
  interface _ _ _ := rfl
  endpoint e s rest := by
    have hbare := setInterfaceStep_endpoint iface alt s e []
    rw [List.append_nil] at hbare
    rw [setInterfaceStep_endpoint, hbare]
  ignored r hr s rest := by
    unfold setInterfaceStep
    rw [r.tagAt_append, if_neg hr.2.1, if_neg hr.2.2]

theorem setInterface_endpoints (es : List Endpoint) :
    visit (setInterfaceStep iface alt) s (es.map Endpoint.record) =
      if s.curIface = iface then
        s.sets (es.map fun e => s.curAltSetting != alt || usbdSetEndpoint e.cfg)
          (if s.curAltSetting = alt then es.map Endpoint.cfg else [])
      else s := by
  induction es generalizing s with
  | nil => rw [List.map_nil, List.map_nil, List.map_nil, ite_self, s.sets_nil, ite_self]; rfl
  | cons e es ih =>
      have hone := setInterfaceStep_endpoint iface alt s e []
      rw [List.append_nil] at hone
      rw [List.map_cons, visit_cons, hone, ih]
      by_cases hnum : s.curIface = iface
      · simp only [if_pos hnum]
        rw [if_pos (show (s.sets _ _).curIface = iface from hnum)]
        have hsplit : (if s.curAltSetting = alt then (e :: es).map Endpoint.cfg else []) =
            (if s.curAltSetting = alt then [e.cfg] else []) ++
              (if s.curAltSetting = alt then es.map Endpoint.cfg else []) := by
          split <;> rfl
        rw [hsplit]
        exact (s.sets_append [_] _ _ _).symm
      · simp only [if_neg hnum]

theorem setInterface_interface (i : Interface) :
    visit (setInterfaceStep iface alt) s i.records =
      { s with curAltSetting := i.bAlternateSetting, curIface := i.bInterfaceNumber }.sets
        (if i.hasNumber iface then i.results alt else [])
        (if i.hasNumber iface then interfaceCfgs alt [i] else []) := by
  have hhead : setInterfaceStep iface alt s i.head.bytes =
      { s with curAltSetting := i.bAlternateSetting, curIface := i.bInterfaceNumber } := rfl
  have hcfgs : interfaceCfgs alt [i] =
      if i.bAlternateSetting = alt then i.endpoints.map Endpoint.cfg else [] := by
    rw [interfaceCfgs_cons]
    exact List.append_nil _
  rw [Interface.records, visit_cons, hhead, visit_append,
    (setInterfaceStep_reads iface alt).visit_others, setInterface_endpoints, hcfgs]
  by_cases hnum : i.bInterfaceNumber = iface
  · have hhas : i.hasNumber iface = true := beq_iff_eq.mpr hnum
    rw [if_pos hnum, if_pos hhas, if_pos hhas]
    rfl
  · have hhas : ¬ i.hasNumber iface = true := fun h => hnum (beq_iff_eq.mp h)
    rw [if_neg hnum, if_neg hhas, if_neg hhas, InterfaceWalk.sets_nil]

/-- Whatever interface comes last. -/
theorem setInterface_interfaces (is : List Interface) :
    ∃ curAlt curIface, visit (setInterfaceStep iface alt) s (is.flatMap Interface.records) =
      { s with curAltSetting := curAlt, curIface := curIface }.sets
        ((is.filter (Interface.hasNumber iface)).flatMap (Interface.results alt))
        (interfaceCfgs alt (is.filter (Interface.hasNumber iface))) := by
  induction is generalizing s with
  | nil => exact ⟨s.curAltSetting, s.curIface, (InterfaceWalk.sets_nil s).symm⟩
  | cons i is ih =>
      rw [List.flatMap_cons, visit_append, setInterface_interface]
      obtain ⟨curAlt, curIface, hrest⟩ :=
        ih ({ s with curAltSetting := i.bAlternateSetting, curIface := i.bInterfaceNumber }.sets
          (if i.hasNumber iface then i.results alt else [])
          (if i.hasNumber iface then interfaceCfgs alt [i] else []))
      refine ⟨curAlt, curIface, hrest.trans ?_⟩
      by_cases hnum : i.hasNumber iface = true
      · have hcfgs := interfaceCfgs_cons alt i (is.filter (Interface.hasNumber iface))
        have hone := interfaceCfgs_cons alt i []
        rw [show interfaceCfgs alt [] = [] from rfl, List.append_nil] at hone
        rw [← hone] at hcfgs
        rw [if_pos hnum, if_pos hnum, List.filter_cons_of_pos hnum, List.flatMap_cons, hcfgs,
          InterfaceWalk.sets_append]
        rfl
      · rw [if_neg hnum, if_neg hnum, List.filter_cons_of_neg hnum, InterfaceWalk.sets_nil]

theorem setInterface_configurations (cs : List Configuration) :
    ∃ curAlt curIface, visit (setInterfaceStep iface alt) s (cs.flatMap Configuration.records) =
      { s with curAltSetting := curAlt, curIface := curIface }.sets
        (((cs.flatMap Configuration.interfaces).filter (Interface.hasNumber iface)).flatMap
          (Interface.results alt))
        (interfaceCfgs alt
          ((cs.flatMap Configuration.interfaces).filter (Interface.hasNumber iface))) := by
  have hreads := setInterfaceStep_reads iface alt
  -- The heads of the configurations change nothing.
  have hskip : visit (setInterfaceStep iface alt) s (cs.flatMap Configuration.records) =
      visit (setInterfaceStep iface alt) s
        ((cs.flatMap Configuration.interfaces).flatMap Interface.records) := by
    induction cs generalizing s with
    | nil => rfl
    | cons c cs ih =>
        have hhead : setInterfaceStep iface alt s c.head.bytes = s := rfl
        rw [List.flatMap_cons, List.flatMap_cons, List.flatMap_append, visit_append, visit_append,
          Configuration.records, visit_cons, hhead, Configuration.inner, visit_append,
          hreads.visit_others]
        exact ih _
  rw [hskip]
  exact setInterface_interfaces iface alt s _

end SetInterface

theorem setInterface_table (d : Descriptors) (iface alt : UInt8) :
    let chosen := (d.configurations.flatMap Configuration.interfaces).filter
      (Interface.hasNumber iface)
    ∃ curAlt curIface, (pointers d.bytes).foldl (setInterfaceStep iface alt) {} =
      { curAltSetting := curAlt
        curIface := curIface
        ret := lastResult false (chosen.flatMap (Interface.results alt))
        opened := interfaceCfgs alt chosen } := by
  intro chosen
  rw [(setInterfaceStep_reads iface alt).foldl_pointers]
  exact setInterface_configurations iface alt {} d.configurations

/-- For every device, interface number and alternate setting: `usbd_set_interface` opens just the
endpoints of the interfaces with both, whatever configuration they belong to, and closes those
of the other alternate settings. It returns the result for the last endpoint of the interfaces
with the number, and false where there is none. -/
theorem usbdSetInterface_opens (d : Descriptors) (iface alt : UInt8) :
    let chosen := (d.configurations.flatMap Configuration.interfaces).filter
      (Interface.hasNumber iface)
    usbdSetInterface d.bytes iface alt =
      (lastResult false (chosen.flatMap (Interface.results alt)), interfaceCfgs alt chosen) := by
  intro chosen
  obtain ⟨curAlt, curIface, hwalk⟩ := setInterface_table d iface alt
  unfold usbdSetInterface
  dsimp only
  rw [hwalk]

/-! ## The table of the profiler -/

/-- The bytes of `cdc_descriptor` are the table of the tree. -/
theorem cdcDescriptor_eq : cdcDescriptor = Descriptors.profiler.bytes := by decide +kernel

/-- What `SET_CONFIGURATION` opens, for any value: of the one configuration, endpoints for data as
wide as the packets that the driver sends. -/
theorem cdcDescriptor_setConfiguration (v alt : UInt8) :
    usbdSetConfiguration cdcDescriptor v alt =
      (v == 1, if v = 1 ∧ alt = 0 then
        [⟨cdcIntEp, 8, 3⟩, ⟨cdcOutEp, UInt16.ofNat cdcMaxMps, 2⟩,
          ⟨cdcInEp, UInt16.ofNat cdcMaxMps, 2⟩] else []) := by
  obtain ⟨curAlt, curConfig, hwalk⟩ := setConfiguration_table Descriptors.profiler v alt
  unfold usbdSetConfiguration
  rw [cdcDescriptor_eq, hwalk]
  dsimp only
  by_cases hv : v = 1
  · by_cases halt : alt = 0
    · rw [hv, halt]
      decide +kernel
    · have hne : ¬ (0 : UInt8) = alt := fun h => halt h.symm
      simp [Descriptors.profiler, Descriptors.communicationInterface, Descriptors.dataInterface,
        Configuration.hasValue, Configuration.endpointCfgs, interfaceCfgs, lastFound, lastResult,
        hv, halt, hne]
  · have hne : ¬ (1 : UInt8) = v := fun h => hv h.symm
    simp [Descriptors.profiler, Configuration.hasValue, lastFound, lastResult, hv, hne]

/-- What `SET_INTERFACE` opens, for any interface. -/
theorem cdcDescriptor_setInterface (iface alt : UInt8) :
    usbdSetInterface cdcDescriptor iface alt =
      (iface == 0 || iface == 1,
        if alt ≠ 0 then []
        else if iface = 0 then [⟨cdcIntEp, 8, 3⟩]
        else if iface = 1 then
          [⟨cdcOutEp, UInt16.ofNat cdcMaxMps, 2⟩, ⟨cdcInEp, UInt16.ofNat cdcMaxMps, 2⟩]
        else []) := by
  obtain ⟨curAlt, curIface, hwalk⟩ := setInterface_table Descriptors.profiler iface alt
  unfold usbdSetInterface
  rw [cdcDescriptor_eq, hwalk]
  dsimp only
  by_cases hzero : iface = 0
  · by_cases halt : alt = 0
    · rw [hzero, halt]
      decide +kernel
    · have hne : ¬ (0 : UInt8) = alt := fun h => halt h.symm
      simp [Descriptors.profiler, Descriptors.communicationInterface, Descriptors.dataInterface,
        Interface.hasNumber, Interface.results, interfaceCfgs, lastResult, hzero, halt, hne]
  · by_cases hone : iface = 1
    · by_cases halt : alt = 0
      · rw [hone, halt]
        decide +kernel
      · have hne : ¬ (0 : UInt8) = alt := fun h => halt h.symm
        simp [Descriptors.profiler, Descriptors.communicationInterface, Descriptors.dataInterface,
          Interface.hasNumber, Interface.results, interfaceCfgs, lastResult, hone, halt, hne]
    · have hne : ¬ (0 : UInt8) = iface := fun h => hzero h.symm
      have hne' : ¬ (1 : UInt8) = iface := fun h => hone h.symm
      simp [Descriptors.profiler, Descriptors.communicationInterface, Descriptors.dataInterface,
        Interface.hasNumber, interfaceCfgs, lastResult, hzero, hone, hne, hne']
