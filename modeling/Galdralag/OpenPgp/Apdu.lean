import Galdralag.Foundation.Bytes

/-!
# Command and response APDUs

The card application speaks ISO 7816-4: a command carries a class, an instruction, two parameter
bytes, data and an expected response length; a response carries data and a status word. Commands
are parsed from raw bytes in the short and the extended length encoding.
-/

set_option linter.all false

namespace Galdralag.OpenPgp

/-! ## Status words -/

/-- OpenPGP card status words. -/
inductive StatusWord where
  | success
  /-- Response bytes are still available; the second byte holds the count, or `0xFF`. -/
  | moreDataAvailable (n : UInt8)
  | terminationState
  | verificationFailed
  /-- Wrong PIN, with the remaining retries in the low nibble. -/
  | verificationFailedRetries (x : UInt8)
  | executionError
  | memoryFailure
  | wrongLength
  | logicalChannelNotSupported
  | secureMessagingNotSupported
  | commandNotAllowed
  | securityStatusNotSatisfied
  | authMethodBlocked
  | conditionsNotSatisfied
  | incorrectParameters
  | fileNotFound
  | referenceDataNotFound
  | wrongParametersP1P2
  | instructionNotSupported
  | classNotSupported
  | noPreciseDiagnosis
  deriving DecidableEq, Repr

/-- First status byte. -/
def StatusWord.sw1 : StatusWord → UInt8
  | .success => 0x90
  | .moreDataAvailable _ => 0x61
  | .terminationState => 0x62
  | .verificationFailed => 0x63
  | .verificationFailedRetries _ => 0x63
  | .executionError => 0x64
  | .memoryFailure => 0x65
  | .wrongLength => 0x67
  | .logicalChannelNotSupported => 0x68
  | .secureMessagingNotSupported => 0x68
  | .commandNotAllowed => 0x69
  | .securityStatusNotSatisfied => 0x69
  | .authMethodBlocked => 0x69
  | .conditionsNotSatisfied => 0x69
  | .incorrectParameters => 0x6A
  | .fileNotFound => 0x6A
  | .referenceDataNotFound => 0x6A
  | .wrongParametersP1P2 => 0x6B
  | .instructionNotSupported => 0x6D
  | .classNotSupported => 0x6E
  | .noPreciseDiagnosis => 0x6F

/-- Second status byte. -/
def StatusWord.sw2 : StatusWord → UInt8
  | .success => 0x00
  | .moreDataAvailable n => n
  | .terminationState => 0x85
  | .verificationFailed => 0x00
  | .verificationFailedRetries x => 0xC0 ||| (x &&& 0x0F)
  | .executionError => 0x00
  | .memoryFailure => 0x81
  | .wrongLength => 0x00
  | .logicalChannelNotSupported => 0x81
  | .secureMessagingNotSupported => 0x82
  | .commandNotAllowed => 0x00
  | .securityStatusNotSatisfied => 0x82
  | .authMethodBlocked => 0x83
  | .conditionsNotSatisfied => 0x85
  | .incorrectParameters => 0x80
  | .fileNotFound => 0x82
  | .referenceDataNotFound => 0x88
  | .wrongParametersP1P2 => 0x00
  | .instructionNotSupported => 0x00
  | .classNotSupported => 0x00
  | .noPreciseDiagnosis => 0x00

/-! ## Commands -/

/-- Parsed command APDU. -/
structure CommandApdu where
  cla : UInt8
  ins : UInt8
  p1 : UInt8
  p2 : UInt8
  data : Vec 512
  /-- Expected response length, if present. -/
  le : Option UInt16
  deriving DecidableEq

/-- Malformed command APDU. -/
inductive ApduError where
  | empty
  | tooShort
  | inconsistentLengths
  deriving DecidableEq, Repr

/-- A one-byte expected length, where zero stands for 256. -/
def leShort (b : UInt8) : UInt16 := if b = 0 then 256 else b.toUInt16

namespace CommandApdu

/-- The expected length that follows the data of an extended command. -/
def parseExtendedLe : Bytes → Except ApduError (Option UInt16)
  | [] => .ok none
  | [b] => .ok (some (leShort b))
  | [b, c] => .ok (some (u16OfBe b c))
  | [b, c, d] => if b = 0 then .ok (some (u16OfBe c d)) else .error .inconsistentLengths
  | _ => .error .inconsistentLengths

/-- The expected length that follows the data of a short command. -/
def parseShortLe : Bytes → Except ApduError (Option UInt16)
  | [] => .ok none
  | [b] => .ok (some (leShort b))
  | [b, c] => .ok (some (if b = 0 then u16OfBe 0 c else u16OfBe b c))
  | [b, c, d] => if b = 0 then .ok (some (u16OfBe c d)) else .error .inconsistentLengths
  | _ => .error .inconsistentLengths

/-- Data of `lc` bytes, then an expected length. -/
def parseBody (cla ins p1 p2 : UInt8) (lc : ℕ) (body : Bytes)
    (parseLe : Bytes → Except ApduError (Option UInt16)) : Except ApduError CommandApdu := do
  if body.length < lc then .error .inconsistentLengths
  match Vec.ofBytes? (body.take lc) with
  | none => .error .inconsistentLengths
  | some data => do
    let le ← parseLe (body.drop lc)
    .ok ⟨cla, ins, p1, p2, data, le⟩

/-- Parse raw bytes, in the short and the extended length encoding. A zero length byte announces
the extended encoding when more than two bytes follow it. -/
def parse : Bytes → Except ApduError CommandApdu
  | [] => .error .empty
  | cla :: ins :: p1 :: p2 :: rest =>
    match rest with
    | [] => .ok ⟨cla, ins, p1, p2, .empty, none⟩
    | [b] => .ok ⟨cla, ins, p1, p2, .empty, some (leShort b)⟩
    | l0 :: body =>
      match body with
      | h :: l :: b :: body' =>
        if l0 = 0 then
          parseBody cla ins p1 p2 (u16OfBe h l).toNat (b :: body') parseExtendedLe
        else parseBody cla ins p1 p2 l0.toNat body parseShortLe
      | _ => parseBody cla ins p1 p2 l0.toNat body parseShortLe
  | _ => .error .tooShort

/-- The most response bytes the command accepts. -/
def leLimit (cmd : CommandApdu) : ℕ :=
  match cmd.le with
  | some l => if l = 0 then 256 else min l.toNat 512
  | none => 256

theorem leLimit_le (cmd : CommandApdu) : cmd.leLimit ≤ 512 := by
  rw [leLimit]
  split
  · split_ifs
    · decide
    · exact Nat.min_le_right _ _
  · decide

end CommandApdu

/-! ## Responses -/

/-- Response APDU with its status word. -/
structure ResponseApdu where
  data : Vec 512
  sw1 : UInt8
  sw2 : UInt8
  deriving DecidableEq

namespace ResponseApdu

/-- A response with payload and the given status. -/
def withStatus (data : Vec 512) (sw : StatusWord) : ResponseApdu := ⟨data, sw.sw1, sw.sw2⟩

/-- Success with payload. -/
def ok (data : Vec 512) : ResponseApdu := withStatus data .success

/-- Success with empty body. -/
def okEmpty : ResponseApdu := withStatus .empty .success

/-- Failure with status word. -/
def error (sw : StatusWord) : ResponseApdu := withStatus .empty sw

/-- The data, then the two status bytes. -/
def toBytes (r : ResponseApdu) : Vec 514 :=
  ⟨r.data.toBytes ++ [r.sw1, r.sw2], by
    have h := r.data.length_le
    rw [Vec.length] at h
    rw [List.length_append, List.length_cons, List.length_singleton]
    omega⟩

end ResponseApdu

/-- A command with an announced length beyond its bytes is refused. -/
example : CommandApdu.parse [0x00, 0xA4, 0x04, 0x00, 0x05, 0x01] = .error .inconsistentLengths := by
  decide

end Galdralag.OpenPgp
