-- SUMMARY: The descriptor table of the USB device: its tree of configurations, interfaces and endpoints, and the walks of usbd_core.c over it.
import PowerProfiler.Lib.Records
import PowerProfiler.Lib.Bytes
import PowerProfiler.Firmware.Device

/-!
# Descriptors

The USB core knows the device only by a table of bytes. `usbd_get_descriptor`,
`usbd_set_configuration` and `usbd_set_interface` each walk over it. The tree that the table
stands for is stated apart, and each walk finds in the table what the tree has.
-/

open Records

/-! ## The walks -/

/-- `USB_DESCRIPTOR_TYPE_DEVICE` -/
def usbDescriptorTypeDevice : UInt8 := 0x01

/-- `USB_DESCRIPTOR_TYPE_CONFIGURATION` -/
def usbDescriptorTypeConfiguration : UInt8 := 0x02

/-- `USB_DESCRIPTOR_TYPE_STRING` -/
def usbDescriptorTypeString : UInt8 := 0x03

/-- `USB_DESCRIPTOR_TYPE_INTERFACE` -/
def usbDescriptorTypeInterface : UInt8 := 0x04

/-- `USB_DESCRIPTOR_TYPE_ENDPOINT` -/
def usbDescriptorTypeEndpoint : UInt8 := 0x05

/-- `USB_DESCRIPTOR_TYPE_OTHER_SPEED` -/
def usbDescriptorTypeOtherSpeed : UInt8 := 0x07

/-- `USB_DESCRIPTOR_TYPE_BINARY_OBJECT_STORE` -/
def usbDescriptorTypeBinaryObjectStore : UInt8 := 0x0F

/-- `USB_OSDESC_STRING_DESC_INDEX` -/
def usbOsdescStringDescIndex : UInt8 := 0xEE

/-- Two bytes of the table, little end first. -/
def u16At (p : List UInt8) (i : Nat) : UInt16 :=
  (p.getD i 0).toUInt16 ||| ((p.getD (i + 1) 0).toUInt16 <<< 8)

/-- The loop of `usbd_get_descriptor`, with `cur_index`. -/
def findDescriptor (type index : UInt8) : Nat → List (List UInt8) → Option (List UInt8)
  | _, [] => none
  | curIndex, p :: ps =>
      if hasTag type p then
        if curIndex = index.toNat then some p else findDescriptor type index (curIndex + 1) ps
      else findDescriptor type index curIndex ps

/-- `usbd_get_descriptor`: the table from the descriptor on, and the length to send. There
are no MS OS and BOS descriptors registered. -/
def usbdGetDescriptor (descriptors : List UInt8) (typeIndex : UInt16) :
    Option (List UInt8 × Nat) :=
  let type := (typeIndex >>> 8).toUInt8
  let index := typeIndex.toUInt8
  if type = usbDescriptorTypeString ∧ index = usbOsdescStringDescIndex then none
  else if type = usbDescriptorTypeBinaryObjectStore then none
  else if type = usbDescriptorTypeInterface ∨ type = usbDescriptorTypeEndpoint ∨
      usbDescriptorTypeEndpoint < type then none
  else
    (findDescriptor type index 0 (pointers descriptors)).map fun p =>
      (p, if type = usbDescriptorTypeConfiguration ∨ type = usbDescriptorTypeOtherSpeed then
            (u16At p 2).toNat
          else (p.getD 0 0).toNat)

/-- `struct usbd_endpoint_cfg` -/
structure EndpointCfg where
  epAddr : UInt8
  epMps : UInt16
  epType : UInt8
  deriving DecidableEq

/-- What `usbd_set_endpoint` gives to `usbd_ep_open`. -/
def endpointCfg (p : List UInt8) : EndpointCfg where
  epAddr := p.getD 2 0
  epMps := u16At p 4 &&& 0x7FF
  epType := p.getD 3 0 &&& 3

/-- `USB_EP_GET_IDX` -/
def usbEpGetIdx (ep : UInt8) : UInt8 := ep &&& 0x7F

/-- `usbd_set_endpoint`: `usbd_ep_open` refuses an index above `USB_NUM_BIDIR_ENDPOINTS`. -/
def usbdSetEndpoint (cfg : EndpointCfg) : Bool := usbEpGetIdx cfg.epAddr ≤ 9

/-- The variables of `usbd_set_configuration`, and the endpoints that it has opened. -/
structure ConfigurationWalk where
  curAltSetting : UInt8 := 0xFF
  curConfig : UInt8 := 0xFF
  found : Bool := false
  opened : List EndpointCfg := []

/-- One round of its loop. -/
def setConfigurationStep (configIndex altSetting : UInt8) (s : ConfigurationWalk)
    (p : List UInt8) : ConfigurationWalk :=
  if tagAt p = usbDescriptorTypeConfiguration then
    { s with curConfig := p.getD 5 0, found := s.found || p.getD 5 0 == configIndex }
  else if tagAt p = usbDescriptorTypeInterface then { s with curAltSetting := p.getD 3 0 }
  else if tagAt p = usbDescriptorTypeEndpoint then
    if s.curConfig ≠ configIndex ∨ s.curAltSetting ≠ altSetting then s
    else { s with found := usbdSetEndpoint (endpointCfg p), opened := s.opened ++ [endpointCfg p] }
  else s

/-- `usbd_set_configuration`: what it returns, and the endpoints that it opens. -/
def usbdSetConfiguration (descriptors : List UInt8) (configIndex altSetting : UInt8) :
    Bool × List EndpointCfg :=
  let s := (pointers descriptors).foldl (setConfigurationStep configIndex altSetting) {}
  (s.found, s.opened)

/-- The variables of `usbd_set_interface`, and the endpoints that it has opened. -/
structure InterfaceWalk where
  curAltSetting : UInt8 := 0xFF
  curIface : UInt8 := 0xFF
  ret : Bool := false
  opened : List EndpointCfg := []

/-- One round of its loop. `usbd_ep_close` does nothing and succeeds. -/
def setInterfaceStep (iface altSetting : UInt8) (s : InterfaceWalk) (p : List UInt8) : InterfaceWalk :=
  if tagAt p = usbDescriptorTypeInterface then
    { s with curAltSetting := p.getD 3 0, curIface := p.getD 2 0 }
  else if tagAt p = usbDescriptorTypeEndpoint then
    if s.curIface = iface then
      if s.curAltSetting ≠ altSetting then { s with ret := true }
      else { s with ret := usbdSetEndpoint (endpointCfg p), opened := s.opened ++ [endpointCfg p] }
    else s
  else s

/-- `usbd_set_interface`: what it returns, and the endpoints that it opens. -/
def usbdSetInterface (descriptors : List UInt8) (iface altSetting : UInt8) :
    Bool × List EndpointCfg :=
  let s := (pointers descriptors).foldl (setInterfaceStep iface altSetting) {}
  (s.ret, s.opened)

/-! ## The tree -/

/-- A descriptor that the core takes no notice of. -/
abbrev OtherRecord := {r : Record // usbDescriptorTypeEndpoint < r.tag}

/-- An endpoint descriptor. -/
structure Endpoint where
  bEndpointAddress : UInt8
  bmAttributes : UInt8
  wMaxPacketSize : UInt16
  bInterval : UInt8

def Endpoint.record (e : Endpoint) : Record where
  bytes := [0x07, usbDescriptorTypeEndpoint, e.bEndpointAddress, e.bmAttributes,
    e.wMaxPacketSize.toUInt8, (e.wMaxPacketSize >>> 8).toUInt8, e.bInterval]
  length_eq := rfl
  two_le := Nat.le_add_left 2 5

def Endpoint.cfg (e : Endpoint) : EndpointCfg where
  epAddr := e.bEndpointAddress
  epMps := e.wMaxPacketSize &&& 0x7FF
  epType := e.bmAttributes &&& 3

/-- An interface descriptor with those that follow it. -/
structure Interface where
  bInterfaceNumber : UInt8
  bAlternateSetting : UInt8
  bNumEndpoints : UInt8
  bInterfaceClass : UInt8
  bInterfaceSubClass : UInt8
  bInterfaceProtocol : UInt8
  iInterface : UInt8
  functional : List OtherRecord
  endpoints : List Endpoint

def Interface.head (i : Interface) : Record where
  bytes := [0x09, usbDescriptorTypeInterface, i.bInterfaceNumber, i.bAlternateSetting,
    i.bNumEndpoints, i.bInterfaceClass, i.bInterfaceSubClass, i.bInterfaceProtocol, i.iInterface]
  length_eq := rfl
  two_le := Nat.le_add_left 2 7

def Interface.records (i : Interface) : List Record :=
  i.head :: (i.functional.map Subtype.val ++ i.endpoints.map Endpoint.record)

/-- The endpoints of the interfaces with the alternate setting. -/
def interfaceCfgs (altSetting : UInt8) (is : List Interface) : List EndpointCfg :=
  (is.filter fun i => i.bAlternateSetting == altSetting).flatMap fun i =>
    i.endpoints.map Endpoint.cfg

/-- A configuration descriptor with those that follow it; all of them together have a length
of 16 bits. -/
structure Configuration where
  bNumInterfaces : UInt8
  bConfigurationValue : UInt8
  iConfiguration : UInt8
  bmAttributes : UInt8
  bMaxPower : UInt8
  associations : List OtherRecord
  interfaces : List Interface
  length_lt : 9 + (flat (associations.map Subtype.val ++ interfaces.flatMap Interface.records)).length < 65536

namespace Configuration

def inner (c : Configuration) : List Record :=
  c.associations.map Subtype.val ++ c.interfaces.flatMap Interface.records

def wTotalLength (c : Configuration) : UInt16 := UInt16.ofNat (9 + (flat c.inner).length)

def head (c : Configuration) : Record where
  bytes := [0x09, usbDescriptorTypeConfiguration, c.wTotalLength.toUInt8,
    (c.wTotalLength >>> 8).toUInt8, c.bNumInterfaces, c.bConfigurationValue, c.iConfiguration,
    c.bmAttributes, c.bMaxPower]
  length_eq := rfl
  two_le := Nat.le_add_left 2 7

def records (c : Configuration) : List Record := c.head :: c.inner

def bytes (c : Configuration) : List UInt8 := flat c.records

def endpointCfgs (altSetting : UInt8) (c : Configuration) : List EndpointCfg :=
  interfaceCfgs altSetting c.interfaces

def hasValue (configIndex : UInt8) (c : Configuration) : Bool := c.bConfigurationValue == configIndex

end Configuration

/-- The descriptors of a device. -/
structure Descriptors where
  device : {r : Record // r.tag = usbDescriptorTypeDevice}
  configurations : List Configuration
  strings : List {r : Record // r.tag = usbDescriptorTypeString}

namespace Descriptors

def records (d : Descriptors) : List Record :=
  d.device.val :: (d.configurations.flatMap Configuration.records ++ d.strings.map Subtype.val)

/-- The table of a device. -/
def bytes (d : Descriptors) : List UInt8 := table d.records

/-- What a host gets for a type and an index. -/
def lookup (d : Descriptors) (type index : UInt8) : Option (List UInt8) :=
  if type = usbDescriptorTypeDevice then if index = 0 then some d.device.val.bytes else none
  else if type = usbDescriptorTypeConfiguration then
    d.configurations[index.toNat]?.map Configuration.bytes
  else if type = usbDescriptorTypeString then
    if index = usbOsdescStringDescIndex then none
    else d.strings[index.toNat]?.map fun r => r.val.bytes
  else none

end Descriptors

/-! ## The table of the profiler -/

/-- `USB_DESCRIPTOR_TYPE_INTERFACE_ASSOCIATION` -/
def usbDescriptorTypeInterfaceAssociation : UInt8 := 0x0B

/-- `CDC_CS_INTERFACE` -/
def cdcCsInterface : UInt8 := 0x24

/-- `USB_DEVICE_DESCRIPTOR_INIT` -/
def usbDeviceDescriptorInit (bcdUSB : UInt16) (bDeviceClass bDeviceSubClass bDeviceProtocol : UInt8)
    (idVendor idProduct bcdDevice : UInt16) (bNumConfigurations : UInt8) : List UInt8 :=
  [0x12, usbDescriptorTypeDevice] ++ u16Bytes bcdUSB ++
    [bDeviceClass, bDeviceSubClass, bDeviceProtocol, 0x40] ++ u16Bytes idVendor ++
    u16Bytes idProduct ++ u16Bytes bcdDevice ++ [0x01, 0x02, 0x03, bNumConfigurations]

/-- `USB_CONFIG_DESCRIPTOR_INIT` -/
def usbConfigDescriptorInit (wTotalLength : UInt16) (bNumInterfaces bConfigurationValue bmAttributes
    bMaxPower : UInt8) : List UInt8 :=
  [0x09, usbDescriptorTypeConfiguration] ++ u16Bytes wTotalLength ++
    [bNumInterfaces, bConfigurationValue, 0x00, bmAttributes, bMaxPower / 2]

/-- `CDC_ACM_DESCRIPTOR_LEN` -/
def cdcAcmDescriptorLen : Nat := 8 + 9 + 5 + 5 + 4 + 5 + 7 + 9 + 7 + 7

/-- `CDC_ACM_DESCRIPTOR_INIT` -/
def cdcAcmDescriptorInit (bFirstInterface intEp outEp inEp strIdx : UInt8) : List UInt8 :=
  [0x08, usbDescriptorTypeInterfaceAssociation, bFirstInterface, 0x02, 0x02, 0x02, 0x01, 0x00,
    0x09, usbDescriptorTypeInterface, bFirstInterface, 0x00, 0x01, 0x02, 0x02, 0x01, strIdx,
    0x05, cdcCsInterface, 0x00, 0x10, 0x01,
    0x05, cdcCsInterface, 0x01, 0x00, bFirstInterface + 1,
    0x04, cdcCsInterface, 0x02, 0x02,
    0x05, cdcCsInterface, 0x06, bFirstInterface, bFirstInterface + 1,
    0x07, usbDescriptorTypeEndpoint, intEp, 0x03, 0x08, 0x00, 0x0A,
    0x09, usbDescriptorTypeInterface, bFirstInterface + 1, 0x00, 0x02, 0x0A, 0x00, 0x00, 0x00,
    0x07, usbDescriptorTypeEndpoint, outEp, 0x02, 0x40, 0x00, 0x00,
    0x07, usbDescriptorTypeEndpoint, inEp, 0x02, 0x40, 0x00, 0x00]

/-- `USB_LANGID_INIT` -/
def usbLangidInit (id : UInt16) : List UInt8 := [0x04, usbDescriptorTypeString] ++ u16Bytes id

/-- `wcChar0`, `wcChar1` and so on -/
def wcChars (cs : List Char) : List UInt8 := cs.flatMap fun c => [UInt8.ofNat c.toNat, 0x00]

/-- `CDC_IN_EP` -/
def cdcInEp : UInt8 := 0x81

/-- `CDC_OUT_EP` -/
def cdcOutEp : UInt8 := 0x02

/-- `CDC_INT_EP` -/
def cdcIntEp : UInt8 := 0x83

/-- The manufacturer. -/
def string1Descriptor : List UInt8 :=
  [0x14, usbDescriptorTypeString] ++ wcChars ['C', 'h', 'e', 'r', 'r', 'y', 'U', 'S', 'B']

/-- The product. -/
def string2Descriptor : List UInt8 :=
  [0x26, usbDescriptorTypeString] ++ wcChars ['C', 'h', 'e', 'r', 'r', 'y', 'U', 'S', 'B', ' ',
    'C', 'D', 'C', ' ', 'D', 'E', 'M', 'O']

/-- The serial number. -/
def string3Descriptor : List UInt8 :=
  [0x16, usbDescriptorTypeString] ++ wcChars ['2', '0', '2', '2', '1', '2', '3', '4', '5', '6']

/-- `cdc_descriptor` -/
def cdcDescriptor : List UInt8 :=
  usbDeviceDescriptorInit 0x0200 0xEF 0x02 0x01 0xFFFF 0xFFFF 0x0100 0x01 ++
    usbConfigDescriptorInit (UInt16.ofNat (9 + cdcAcmDescriptorLen)) 0x02 0x01 0x80 100 ++
    cdcAcmDescriptorInit 0x00 cdcIntEp cdcOutEp cdcInEp 0x02 ++ usbLangidInit 1033 ++
    string1Descriptor ++ string2Descriptor ++ string3Descriptor ++ [0x00]

namespace Descriptors

/-- The interface for commands of the modem class. -/
def communicationInterface : Interface where
  bInterfaceNumber := 0
  bAlternateSetting := 0
  bNumEndpoints := 1
  bInterfaceClass := 2
  bInterfaceSubClass := 2
  bInterfaceProtocol := 1
  iInterface := 2
  functional :=
    [⟨⟨[5, cdcCsInterface, 0, 0x10, 0x01], rfl, by decide⟩, by decide⟩,
      ⟨⟨[5, cdcCsInterface, 1, 0, 1], rfl, by decide⟩, by decide⟩,
      ⟨⟨[4, cdcCsInterface, 2, 2], rfl, by decide⟩, by decide⟩,
      ⟨⟨[5, cdcCsInterface, 6, 0, 1], rfl, by decide⟩, by decide⟩]
  endpoints := [⟨cdcIntEp, 3, 8, 10⟩]

/-- The interface for data. -/
def dataInterface : Interface where
  bInterfaceNumber := 1
  bAlternateSetting := 0
  bNumEndpoints := 2
  bInterfaceClass := 10
  bInterfaceSubClass := 0
  bInterfaceProtocol := 0
  iInterface := 0
  functional := []
  endpoints := [⟨cdcOutEp, 2, 64, 0⟩, ⟨cdcInEp, 2, 64, 0⟩]

/-- The tree of the profiler. -/
def profiler : Descriptors where
  device := ⟨⟨usbDeviceDescriptorInit 0x0200 0xEF 0x02 0x01 0xFFFF 0xFFFF 0x0100 0x01, rfl, by decide⟩, rfl⟩
  configurations :=
    [{ bNumInterfaces := 2
       bConfigurationValue := 1
       iConfiguration := 0
       bmAttributes := 0x80
       bMaxPower := 50
       associations := [⟨⟨[8, usbDescriptorTypeInterfaceAssociation, 0, 2, 2, 2, 1, 0], rfl, by decide⟩,
         by decide⟩]
       interfaces := [communicationInterface, dataInterface]
       length_lt := by decide }]
  strings :=
    [⟨⟨usbLangidInit 1033, rfl, by decide⟩, rfl⟩, ⟨⟨string1Descriptor, rfl, by decide⟩, rfl⟩,
      ⟨⟨string2Descriptor, rfl, by decide⟩, rfl⟩, ⟨⟨string3Descriptor, rfl, by decide⟩, rfl⟩]

end Descriptors
