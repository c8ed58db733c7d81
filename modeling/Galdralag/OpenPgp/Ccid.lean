import Galdralag.OpenPgp.Dispatch

/-!
# The card reader interface

A host talks to the card in CCID messages: it powers the card on and off, asks for the slot status,
aborts, and transfers command APDUs. Each message is answered with one frame. A bus reset comes
from below and is not answered.
-/

set_option linter.all false

namespace Galdralag.OpenPgp

/-! ## Messages from the host -/

/-- Message types used for APDU exchange. -/
inductive PcToRdr where
  | iccPowerOn (slot seq powerSelect : UInt8)
  | iccPowerOff (slot seq : UInt8)
  | getSlotStatus (slot seq : UInt8)
  | xfrBlock (slot seq : UInt8) (apdu : Vec 512)
  | abort (slot seq : UInt8)
  deriving DecidableEq

/-- Malformed or unsupported host message. -/
inductive CcidError where
  | tooShort
  | lengthMismatch
  | unknownMessageType
  | payloadTooLarge
  deriving DecidableEq, Repr

/-- Parse a host message: a header of ten bytes with a little-endian payload length, then the
payload, which only a transfer may have. -/
def parsePcToRdr (data : Bytes) : Except CcidError PcToRdr := do
  match data with
  | msgType :: l₀ :: l₁ :: l₂ :: l₃ :: slot :: seq :: b₇ :: _ :: _ :: payload =>
    let dwLength := leNat [l₀, l₁, l₂, l₃]
    if payload.length ≠ dwLength then .error .lengthMismatch
    let empty (msg : PcToRdr) : Except CcidError PcToRdr :=
      if dwLength ≠ 0 then .error .lengthMismatch else .ok msg
    if msgType = 0x62 then empty (.iccPowerOn slot seq b₇)
    else if msgType = 0x63 then empty (.iccPowerOff slot seq)
    else if msgType = 0x65 then empty (.getSlotStatus slot seq)
    else if msgType = 0x6F then
      match Vec.ofBytes? payload with
      | some apdu => .ok (.xfrBlock slot seq apdu)
      | none => .error .payloadTooLarge
    else if msgType = 0x72 then empty (.abort slot seq)
    else .error .unknownMessageType
  | _ => .error .tooShort

/-! ## Frames to the host -/

/-- Result flags of a frame. -/
structure CcidStatus where
  bStatus : UInt8
  bError : UInt8
  bChain : UInt8
  deriving DecidableEq

/-- Command processed; card present and active. -/
def CcidStatus.okActive : CcidStatus := ⟨0x00, 0x00, 0x00⟩

/-- The message could not be handled. -/
def CcidStatus.cmdNotSupported : CcidStatus := ⟨0x40, 0xFE, 0x00⟩

/-- A frame: header, then payload. -/
def frame (msgType slot seq : UInt8) (st : CcidStatus) (payload : Bytes) : Vec 530 :=
  .truncated (msgType :: u32le (.ofNat payload.length)
    ++ [slot, seq, st.bStatus, st.bError, st.bChain] ++ payload)

/-- The answer to a transfer. -/
def rdrToPcDataBlock (slot seq : UInt8) (st : CcidStatus) (apduResponse : Bytes) : Vec 530 :=
  frame 0x80 slot seq st apduResponse

/-- The answer to everything but a transfer and a power-on. -/
def rdrToPcSlotStatus (slot seq : UInt8) (st : CcidStatus) : Vec 530 := frame 0x81 slot seq st []

/-- The answer to a power-on: the answer to reset. -/
def rdrToPcParameters (slot seq : UInt8) : Vec 530 :=
  frame 0x82 slot seq .okActive atrOpenpgpProfile

/-! ## The dispatcher -/

section Dispatcher

variable {β : Type} (bk : OpenPgpBackend β)

/-- Handle one parsed host message. -/
def handleCcid (msg : PcToRdr) (s : Session β) : Vec 530 × Session β :=
  match msg with
  | .iccPowerOn slot seq _ => (rdrToPcParameters slot seq, s)
  | .iccPowerOff slot seq => (rdrToPcSlotStatus slot seq .okActive, s.reset)
  | .getSlotStatus slot seq => (rdrToPcSlotStatus slot seq .okActive, s)
  | .xfrBlock slot seq apdu =>
    match CommandApdu.parse apdu.toBytes with
    | .ok cmd =>
      let r := handleApdu bk cmd s
      (rdrToPcDataBlock slot seq .okActive r.1.toBytes.toBytes, r.2)
    | .error _ => (rdrToPcSlotStatus slot seq .cmdNotSupported, s)
  | .abort slot seq => (rdrToPcSlotStatus slot seq .okActive, s.reset)

/-- Bus reset: clear the card session and notify the backend. -/
def onUsbReset (s : Session β) : Session β :=
  { s.reset with backend := bk.onLockDisconnect s.backend }

end Dispatcher

end Galdralag.OpenPgp
