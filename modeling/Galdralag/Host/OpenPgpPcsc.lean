import Galdralag.Host.Error
import Galdralag.OpenPgp.Ccid
import Galdralag.OpenPgp.ResponseChain

/-!
# Reading data objects through PC/SC

The host asks for an object with GET DATA and follows each `61xx` with a GET RESPONSE until the card
answers `9000`. The card answers with up to 256 bytes, keeps the rest, and announces how much is
left: all of it up to 255 bytes.

PC/SC is a parameter: it takes a command to the card, and the response into a buffer of the host.
The link over which a card is reached directly is `cardLink`.
-/

set_option linter.all false

namespace Galdralag.Host

open OpenPgp

variable {σ β : Type}

/-- PC/SC: a command, and the room there is for the response. -/
abbrev PcscLink (σ : Type) := Bytes → ℕ → Fallible σ String Bytes

namespace Pcsc

/-! ## The host -/

def swOk : UInt16 := 0x9000

def combineSw (sw1 sw2 : UInt8) : UInt16 := u16OfBe sw1 sw2

/-- A status word in four hexadecimal digits. -/
def sw04X (sw : UInt16) : String :=
  let digits := (Nat.toDigits 16 sw.toNat).map Char.toUpper
  .ofList (List.replicate (4 - digits.length) '0' ++ digits)

/-- Send a command; the response is its body and its status word. -/
def transmit (link : PcscLink σ) (apdu : Bytes) : Fallible σ GaldraError (Bytes × UInt16) := do
  let response ← .mapError (fun e ↦ .smartCard ("PC/SC transmit failed: " ++ e)) (link apdu 1024)
  .require (2 ≤ response.length) (.smartCard "PC/SC response too short")
  let l := response.length
  let sw1 := (response[l - 2]?).getD 0
  let sw2 := (response[l - 1]?).getD 0
  pure (response.take (l - 2), combineSw sw1 sw2)

/-- Read a complete response body, following `61xx`, with so many commands at most; there is no
answer when these are not enough. -/
def transmitCollect (link : PcscLink σ) :
    ℕ → Bytes → Bytes → Fallible σ GaldraError (Option Bytes)
  | 0, _, _ => pure none
  | fuel + 1, acc, cmd => do
    let r ← transmit link cmd
    let acc := acc ++ r.1
    if r.2 = swOk then pure (some acc)
    else
      let sw1 := (r.2 >>> 8).toUInt8
      let sw2 := r.2.toUInt8
      .require (sw1 = 0x61) (.smartCard ("OpenPGP command failed: SW=" ++ sw04X r.2))
      let le := if sw2 = 0 then 0x00 else sw2
      transmitCollect link fuel acc [0x00, 0xC0, 0x00, 0x00, le]

/-- Read a data object. -/
def readDo (link : PcscLink σ) (fuel : ℕ) (tag : UInt16) : Fallible σ GaldraError (Option Bytes) :=
  transmitCollect link fuel [] [0x00, 0xCA, (tag >>> 8).toUInt8, tag.toUInt8, 0x00]

/-! ## The card -/

/-- The card behind a link: the command is parsed and handled, and the response is delivered if
there is room for it. -/
def cardLink (bk : OpenPgpBackend β) : PcscLink (Session β) := fun apdu room s ↦
  match CommandApdu.parse apdu with
  | .error _ => (.error "command not supported", s)
  | .ok cmd =>
    let r := handleApdu bk cmd s
    if r.1.toBytes.length ≤ room then (.ok r.1.toBytes.toBytes, r.2)
    else (.error "insufficient buffer", r.2)

/-- A tag whose object GET DATA does not assemble itself. -/
def PassedOn (tag : UInt16) : Prop := tag ∉ [(0x004F : UInt16), 0x6E, 0x65, 0x7A]

variable {bk : OpenPgpBackend β} {s s' : Session β} {cmd : CommandApdu} {apdu : Bytes}

/-- A response is split into its body and its status word. -/
theorem transmit_card {r : ResponseApdu} (hparse : CommandApdu.parse apdu = .ok cmd)
    (hrun : handleApdu bk cmd s = (r, s')) :
    transmit (cardLink bk) apdu s = (.ok (r.data.toBytes, combineSw r.sw1 r.sw2), s') := by
  have hlen : r.toBytes.toBytes.length = r.data.toBytes.length + 2 := List.length_append
  have hroom : r.toBytes.length ≤ 1024 := Nat.le_trans r.toBytes.length_le (by decide)
  have hbytes : r.toBytes.toBytes = r.data.toBytes ++ [r.sw1, r.sw2] := rfl
  have hlink : cardLink bk apdu 1024 s = (.ok r.toBytes.toBytes, s') := by
    rw [cardLink, hparse]
    dsimp only
    rw [hrun, if_pos hroom]
  have hmapped : (Fallible.mapError (fun e ↦ GaldraError.smartCard ("PC/SC transmit failed: " ++ e))
      (cardLink bk apdu 1024)) s = (.ok r.toBytes.toBytes, s') := by
    rw [Fallible.mapError, hlink]
    rfl
  have henough : 2 ≤ r.toBytes.toBytes.length := by omega
  -- the last two bytes are the status word
  have htwo : r.data.toBytes.length + 2 - 2 = r.data.toBytes.length := by omega
  have hone : r.data.toBytes.length + 2 - 1 = r.data.toBytes.length + 1 := by omega
  have hbody : r.toBytes.toBytes.take (r.toBytes.toBytes.length - 2) = r.data.toBytes := by
    rw [hlen, htwo, hbytes, List.take_left' rfl]
  have hsw1 : (r.toBytes.toBytes[r.toBytes.toBytes.length - 2]?).getD 0 = r.sw1 := by
    rw [hlen, htwo, hbytes, List.getElem?_append_right (Nat.le_refl _), Nat.sub_self]
    rfl
  have hsw2 : (r.toBytes.toBytes[r.toBytes.toBytes.length - 1]?).getD 0 = r.sw2 := by
    rw [hlen, hone, hbytes, List.getElem?_append_right (Nat.le_add_right _ _),
      Nat.add_sub_cancel_left]
    rfl
  rw [transmit, Fallible.bind_of_ok hmapped, Fallible.bind_of_ok (Fallible.require_of henough _ _),
    hbody, hsw1, hsw2]
  rfl

/-- The last part of a body. -/
theorem collect_last {r : ResponseApdu} (fuel : ℕ) (acc : Bytes)
    (hparse : CommandApdu.parse apdu = .ok cmd) (hrun : handleApdu bk cmd s = (r, s'))
    (hsw1 : r.sw1 = 0x90) (hsw2 : r.sw2 = 0x00) :
    transmitCollect (cardLink bk) (fuel + 1) acc apdu s = (.ok (some (acc ++ r.data.toBytes)), s') := by
  have hok : combineSw r.sw1 r.sw2 = swOk := by
    rw [hsw1, hsw2]
    decide
  rw [transmitCollect, Fallible.bind_of_ok (transmit_card hparse hrun)]
  dsimp only
  rw [if_pos hok]
  rfl

/-- Another part, behind which `n` bytes or more are left. -/
theorem collect_more {r : ResponseApdu} {n : UInt8} (fuel : ℕ) (acc : Bytes)
    (hparse : CommandApdu.parse apdu = .ok cmd) (hrun : handleApdu bk cmd s = (r, s'))
    (hsw1 : r.sw1 = 0x61) (hsw2 : r.sw2 = n) :
    transmitCollect (cardLink bk) (fuel + 1) acc apdu s
      = transmitCollect (cardLink bk) fuel (acc ++ r.data.toBytes) [0x00, 0xC0, 0x00, 0x00, n] s' := by
  have hhigh : (combineSw 0x61 n >>> 8).toUInt8 = 0x61 := by
    rw [← UInt8.toNat_inj, toNat_u16_high, combineSw, toNat_u16OfBe]
    have hn := n.toNat_lt
    have h61 : (0x61 : UInt8).toNat = 0x61 := rfl
    omega
  have hlow : (combineSw 0x61 n).toUInt8 = n := by
    rw [← UInt8.toNat_inj, UInt16.toNat_toUInt8, combineSw, toNat_u16OfBe]
    have hn := n.toNat_lt
    omega
  have hmore : combineSw 0x61 n ≠ swOk := by
    intro heq
    rw [heq] at hhigh
    exact absurd hhigh (by decide)
  have hle : (if n = 0 then 0x00 else n) = n := by
    split_ifs with hzero
    · exact hzero.symm
    · rfl
  rw [transmitCollect, Fallible.bind_of_ok (transmit_card hparse hrun), hsw1, hsw2]
  dsimp only
  rw [if_neg hmore, hhigh, hlow, hle, Fallible.bind_of_ok (Fallible.require_of rfl _ _)]

/-! ## The rest of a response -/

/-- A card that has kept a response of which something is left. -/
structure Waiting (bk : OpenPgpBackend β) (s : Session β) : Prop where
  running : bk.isTerminationState s.backend = false
  left : s.card.pending ≠ []

/-- The command that fetches up to `n` bytes. -/
def getResponse (n : UInt8) : CommandApdu := ⟨0x00, 0xC0, 0x00, 0x00, .empty, some (leShort n)⟩

theorem parse_getResponse (n : UInt8) :
    CommandApdu.parse [0x00, 0xC0, 0x00, 0x00, n] = .ok (getResponse n) := rfl

theorem leLimit_getResponse {n : UInt8} (h : n ≠ 0) : (getResponse n).leLimit = n.toNat := by
  have hn := n.toNat_lt
  have hshort : leShort n = n.toUInt16 := if_neg h
  have hpos : n.toUInt16 ≠ 0 := by
    intro hzero
    have hnat := congrArg UInt16.toNat hzero
    rw [UInt8.toNat_toUInt16] at hnat
    exact h (UInt8.toNat_inj.mp hnat)
  rw [CommandApdu.leLimit, getResponse]
  dsimp only
  rw [hshort, if_neg hpos, UInt8.toNat_toUInt16]
  omega

section Fetching

variable (h : Waiting bk s) {n : UInt8} (hn : n ≠ 0)
include h hn

/-- The last part. -/
theorem getResponse_last (hfits : s.card.pending.length ≤ n.toNat) : ∃ (chunk : Vec 512) (s' : Session β),
    handleApdu bk (getResponse n) s = (.ok chunk, s') ∧ chunk.toBytes = s.card.pending ∧
      s'.backend = s.backend := by
  rw [← leLimit_getResponse hn] at hfits
  obtain ⟨chunk, s', hrun, hchunk, -, hbackend⟩ := handleGetResponse_last h.left hfits
  refine ⟨chunk, s', handleApdu_of_ok ?_, hchunk, hbackend⟩
  rw [handle_run h.running rfl, Instruction.handler, hrun]

/-- A part behind which something is left. -/
theorem getResponse_more (hlong : n.toNat < s.card.pending.length) :
    ∃ (chunk : Vec 512) (s' : Session β), handleApdu bk (getResponse n) s
        = (.withStatus chunk (.more (s.card.pending.length - n.toNat)), s') ∧
      chunk.toBytes = s.card.pending.take n.toNat ∧
      s'.card.pending = s.card.pending.drop n.toNat ∧ s'.backend = s.backend := by
  rw [← leLimit_getResponse hn] at hlong ⊢
  obtain ⟨chunk, s', hrun, hrest⟩ := handleGetResponse_more h.left hlong
  refine ⟨chunk, s', handleApdu_of_ok ?_, hrest⟩
  rw [handle_run h.running rfl, Instruction.handler, hrun]

end Fetching

/-- What the card announces. -/
def announced (left : ℕ) : UInt8 := UInt8.ofNat (min left 255)

theorem toNat_announced (left : ℕ) : (announced left).toNat = min left 255 := by
  rw [announced, UInt8.toNat_ofNat', Nat.mod_eq_of_lt (by omega)]

/-- **Fetching.** From a card that waits, the host collects what is left, 255 bytes at a time; by
induction on the number of commands. -/
theorem collect_pending (fuel : ℕ) : ∀ {s : Session β} (acc : Bytes), Waiting bk s →
    s.card.pending.length ≤ 255 * fuel → ∃ s',
      transmitCollect (cardLink bk) fuel acc
          [0x00, 0xC0, 0x00, 0x00, announced s.card.pending.length] s
        = (.ok (some (acc ++ s.card.pending)), s') ∧ s'.backend = s.backend := by
  induction fuel with
  | zero =>
    intro s acc h hle
    exact absurd (List.eq_nil_of_length_eq_zero (Nat.le_zero.mp hle)) h.left
  | succ fuel ih =>
    intro s acc h hle
    have hpos : 0 < s.card.pending.length := List.length_pos_of_ne_nil h.left
    have hnat := toNat_announced s.card.pending.length
    have hne : announced s.card.pending.length ≠ 0 := by
      intro hzero
      rw [hzero] at hnat
      have hzero' : (0 : UInt8).toNat = 0 := rfl
      omega
    rcases Nat.lt_or_ge 255 s.card.pending.length with hlong | hshort
    · have hlt : (announced s.card.pending.length).toNat < s.card.pending.length := by omega
      obtain ⟨chunk, s₁, hrun, hchunk, hpending, hbackend⟩ := getResponse_more h hne hlt
      have hrest : s₁.card.pending.length
          = s.card.pending.length - (announced s.card.pending.length).toNat := by
        rw [hpending, List.length_drop]
      have hwaiting : Waiting bk s₁ := by
        refine ⟨by rw [hbackend]; exact h.running, fun hnil ↦ ?_⟩
        rw [hnil, List.length_nil] at hrest
        omega
      obtain ⟨s', hcollect, hbackend'⟩ := ih (acc ++ chunk.toBytes) hwaiting (by omega)
      rw [hrest, hpending, List.append_assoc, hchunk, List.take_append_drop, ← hchunk] at hcollect
      have hstep : transmitCollect (cardLink bk) (fuel + 1) acc
          [0x00, 0xC0, 0x00, 0x00, announced s.card.pending.length] s = _ :=
        collect_more fuel acc (parse_getResponse _) hrun rfl rfl
      exact ⟨s', hstep.trans hcollect, hbackend'.trans hbackend⟩
    · have hfits : s.card.pending.length ≤ (announced s.card.pending.length).toNat := by omega
      obtain ⟨chunk, s', hrun, hchunk, hbackend⟩ := getResponse_last h hne hfits
      have hstep : transmitCollect (cardLink bk) (fuel + 1) acc
          [0x00, 0xC0, 0x00, 0x00, announced s.card.pending.length] s
            = (.ok (some (acc ++ chunk.toBytes)), s') :=
        collect_last fuel acc (parse_getResponse _) hrun rfl rfl
      rw [hchunk] at hstep
      exact ⟨s', hstep, hbackend⟩

/-! ## Reading an object -/

/-- The command that asks for an object. -/
def getData (tag : UInt16) : CommandApdu :=
  ⟨0x00, 0xCA, (tag >>> 8).toUInt8, tag.toUInt8, .empty, some (leShort 0x00)⟩

theorem tag_getData (tag : UInt16) : (getData tag).tag = tag := u16OfBe_u16be tag

theorem doTag_of_passedOn {tag : UInt16} (h : PassedOn tag) (b : β) : doTag bk tag b = bk.getDo b tag := by
  simp only [PassedOn, List.mem_cons, List.not_mem_nil, or_false, not_or] at h
  rw [doTag, if_neg h.1, if_neg h.2.1, if_neg h.2.2.1, if_neg h.2.2.2]

section Reading

variable {tag : UInt16} {data : Vec 512} (hrunning : bk.isTerminationState s.backend = false)
  (htag : PassedOn tag) (hget : bk.getDo s.backend tag = .ok data)
include hrunning htag hget

theorem handle_getData :
    handle bk (getData tag) s = (chunkResponse (getData tag) data : Handler β ResponseApdu) s := by
  have hask : (ask (doTag bk tag) : Handler β (Vec 512)) s = (.ok data, s) := by
    rw [ask, Fallible.reading_apply, doTag_of_passedOn htag, hget]
    rfl
  rw [handle_run hrunning rfl, Instruction.handler, handleGetData, tag_getData,
    Fallible.bind_of_ok hask]

/-- An object of up to 256 bytes is answered at once. -/
theorem getData_short (hlen : data.length ≤ 256) :
    handleApdu bk (getData tag) s = (.ok data, s) := by
  apply handleApdu_of_ok
  rw [handle_getData hrunning htag hget]
  exact chunkResponse_short hlen

/-- Of a longer one the card keeps what is behind the first 256 bytes. -/
theorem getData_long (hlen : 256 < data.length) : ∃ (chunk : Vec 512) (s' : Session β),
    handleApdu bk (getData tag) s
        = (.withStatus chunk (.moreDataAvailable (announced (data.length - 256))), s') ∧
      chunk.toBytes = data.toBytes.take 256 ∧ s'.card.pending = data.toBytes.drop 256 ∧
      s'.backend = s.backend := by
  have hlim : (getData tag).leLimit < data.length := hlen
  obtain ⟨chunk, s', hrun, hrest⟩ := chunkResponse_long (s := s) hlim
  refine ⟨chunk, s', handleApdu_of_ok ?_, hrest⟩
  rw [handle_getData hrunning htag hget, hrun]
  rfl

/-- **Long reads.** The host's loop against the card ends after at most three commands, and returns
what the backend returned for the tag. -/
theorem readDo_eq (fuel : ℕ) : ∃ s', readDo (cardLink bk) (fuel + 3) tag s
    = (.ok (some data.toBytes), s') := by
  have hparse : CommandApdu.parse [0x00, 0xCA, (tag >>> 8).toUInt8, tag.toUInt8, 0x00]
      = .ok (getData tag) := rfl
  rcases Nat.lt_or_ge 256 data.length with hlong | hshort
  · obtain ⟨chunk, s₁, hrun, hchunk, hpending, hbackend⟩ := getData_long hrunning htag hget hlong
    have hlen : s₁.card.pending.length = data.length - 256 := by
      rw [hpending, List.length_drop]
      rfl
    have hwaiting : Waiting bk s₁ := by
      refine ⟨by rw [hbackend]; exact hrunning, fun hnil ↦ ?_⟩
      rw [hnil, List.length_nil] at hlen
      omega
    have hmax : data.length ≤ 512 := data.length_le
    obtain ⟨s', hcollect, -⟩ := collect_pending (fuel + 2) chunk.toBytes hwaiting (by omega)
    rw [hlen, hpending, hchunk, List.take_append_drop, ← hchunk] at hcollect
    have hstep : readDo (cardLink bk) (fuel + 3) tag s = _ :=
      collect_more (fuel + 2) [] hparse hrun rfl rfl
    exact ⟨s', hstep.trans hcollect⟩
  · have hrun := getData_short hrunning htag hget hshort
    exact ⟨s, collect_last (fuel + 2) [] hparse hrun rfl rfl⟩

end Reading

/-- An object of 512 bytes, and a backend that has it under every tag. -/
def longObject : Vec 512 := .truncated (List.replicate 512 0xA5)

def longBackend : OpenPgpBackend PUnit := { acceptingBackend with getDo := fun _ _ ↦ .ok longObject }

theorem readDo_eq_long :
    ∃ s', readDo (cardLink longBackend) 3 0x5F50 (.new ⟨⟩) = (.ok (some longObject.toBytes), s') := by
  have hrunning : longBackend.isTerminationState (Session.new PUnit.unit).backend = false := rfl
  have htag : PassedOn 0x5F50 := by
    rw [PassedOn]
    decide
  have hget : longBackend.getDo (Session.new PUnit.unit).backend 0x5F50 = .ok longObject := rfl
  exact readDo_eq hrunning htag hget 0

end Pcsc

end Galdralag.Host
