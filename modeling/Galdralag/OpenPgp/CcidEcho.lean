import Galdralag.OpenPgp.CcidClass

/-!
# Answers and their messages

A host matches an answer to its message by the slot and the sequence number, which a message carries
in its header and an answer in the same place. The handler of parsed messages copies them, for every
kind of message and also when the transferred command cannot be parsed.

The class driver answers a message that it cannot take up by itself, with slot and sequence number
zero. The loop of the card service, which answers for the same handler over another transport, takes
them from the header of such a message instead.
-/

set_option linter.all false

namespace Galdralag.OpenPgp

/-- Slot and sequence number, in the header of a message and in the header of an answer. -/
def slotSeq (bs : Bytes) : Bytes := (bs.drop 5).take 2

/-- A message that can be taken up, by its header: one of the known types, with a payload only for a
transfer, and then of at most 512 bytes. -/
def Supported (msg : Bytes) : Prop :=
  msg.headD 0 = 0x6F ∧ dwLength msg ≤ 512 ∨
    msg.headD 0 ∈ [(0x62 : UInt8), 0x63, 0x65, 0x72] ∧ dwLength msg = 0

/-- A message is due: its header is complete, and it is complete itself or announces more than fits.
-/
def CcidProtocolState.Due {δ : Type} (p : CcidProtocolState δ) : Prop :=
  10 ≤ p.rxBuf.length ∧ (ccidWireBufSize < 10 + dwLength p.rxBuf.toBytes ∨
    10 + dwLength p.rxBuf.toBytes ≤ p.rxBuf.length)

/-- The slot and the sequence number of a parsed message. -/
def PcToRdr.slotSeq : PcToRdr → Bytes
  | .iccPowerOn slot seq _ => [slot, seq]
  | .iccPowerOff slot seq => [slot, seq]
  | .getSlotStatus slot seq => [slot, seq]
  | .xfrBlock slot seq _ => [slot, seq]
  | .abort slot seq => [slot, seq]

variable {β : Type} {bk : OpenPgpBackend β} {msg : Bytes} {s : Session β}

/-! ## Answers -/

theorem slotSeq_frame (msgType slot seq : UInt8) (st : CcidStatus) (payload : Bytes) :
    slotSeq (frame msgType slot seq st payload).toBytes = [slot, seq] := by
  have hlen : (u32le (.ofNat payload.length)).length = 4 := length_u32le _
  obtain ⟨l₀, l₁, l₂, l₃, hle⟩ : ∃ l₀ l₁ l₂ l₃, u32le (.ofNat payload.length) = [l₀, l₁, l₂, l₃] :=
    ⟨_, _, _, _, rfl⟩
  rw [frame, hle]
  rfl

/-- The handler copies slot and sequence number. -/
theorem slotSeq_handleCcid (bk : OpenPgpBackend β) (msg : PcToRdr) (s : Session β) :
    slotSeq (handleCcid bk msg s).1.toBytes = msg.slotSeq := by
  cases msg with
  | iccPowerOn slot seq powerSelect => exact slotSeq_frame _ _ _ _ _
  | iccPowerOff slot seq => exact slotSeq_frame _ _ _ _ _
  | getSlotStatus slot seq => exact slotSeq_frame _ _ _ _ _
  | abort slot seq => exact slotSeq_frame _ _ _ _ _
  | xfrBlock slot seq apdu =>
    rw [handleCcid]
    rcases CommandApdu.parse apdu.toBytes with e | cmd
    · exact slotSeq_frame _ _ _ _ _
    · exact slotSeq_frame _ _ _ _ _

/-! ## Messages -/

/-- The ten bytes of a header. -/
theorem exists_header (h : 10 ≤ msg.length) : ∃ t l₀ l₁ l₂ l₃ slot seq b₇ b₈ b₉ payload,
    msg = t :: l₀ :: l₁ :: l₂ :: l₃ :: slot :: seq :: b₇ :: b₈ :: b₉ :: payload := by
  rcases msg with _ | ⟨t, _ | ⟨l₀, _ | ⟨l₁, _ | ⟨l₂, _ | ⟨l₃, _ | ⟨slot, _ | ⟨seq, _ | ⟨b₇, _ | ⟨b₈,
    _ | ⟨b₉, payload⟩⟩⟩⟩⟩⟩⟩⟩⟩⟩
  case cons.cons.cons.cons.cons.cons.cons.cons.cons.cons => exact ⟨_, _, _, _, _, _, _, _, _, _, _, rfl⟩
  all_goals exact absurd h (by simp)

/-- A complete message: its header announces the length of its payload. -/
theorem exists_complete (hlen : msg.length = 10 + dwLength msg) :
    ∃ t l₀ l₁ l₂ l₃ slot seq b₇ b₈ b₉ payload, payload.length = leNat [l₀, l₁, l₂, l₃] ∧
      msg = t :: l₀ :: l₁ :: l₂ :: l₃ :: slot :: seq :: b₇ :: b₈ :: b₉ :: payload := by
  have hheader : 10 ≤ msg.length := by omega
  obtain ⟨t, l₀, l₁, l₂, l₃, slot, seq, b₇, b₈, b₉, payload, rfl⟩ := exists_header hheader
  have hdw : dwLength (t :: l₀ :: l₁ :: l₂ :: l₃ :: slot :: seq :: b₇ :: b₈ :: b₉ :: payload)
      = leNat [l₀, l₁, l₂, l₃] := rfl
  simp only [List.length_cons] at hlen
  exact ⟨t, l₀, l₁, l₂, l₃, slot, seq, b₇, b₈, b₉, payload, by omega, rfl⟩

/-- What a type without payload is parsed to. -/
def bare (dw : ℕ) (m : PcToRdr) : Except CcidError PcToRdr :=
  if dw ≠ 0 then .error .lengthMismatch else .ok m

/-- A complete message is parsed by its type. -/
theorem parse_complete {t l₀ l₁ l₂ l₃ slot seq b₇ b₈ b₉ : UInt8} {payload : Bytes}
    (hlen : payload.length = leNat [l₀, l₁, l₂, l₃]) :
    parsePcToRdr (t :: l₀ :: l₁ :: l₂ :: l₃ :: slot :: seq :: b₇ :: b₈ :: b₉ :: payload) =
      if t = 0x62 then bare (leNat [l₀, l₁, l₂, l₃]) (.iccPowerOn slot seq b₇)
      else if t = 0x63 then bare (leNat [l₀, l₁, l₂, l₃]) (.iccPowerOff slot seq)
      else if t = 0x65 then bare (leNat [l₀, l₁, l₂, l₃]) (.getSlotStatus slot seq)
      else if t = 0x6F then
        match Vec.ofBytes? payload with
        | some apdu => .ok (.xfrBlock slot seq apdu)
        | none => .error .payloadTooLarge
      else if t = 0x72 then bare (leNat [l₀, l₁, l₂, l₃]) (.abort slot seq)
      else .error .unknownMessageType := by
  rw [parsePcToRdr]
  dsimp only
  rw [if_neg (not_not_intro hlen)]
  rfl

theorem bare_eq_ok {dw : ℕ} {m m' : PcToRdr} : bare dw m = .ok m' ↔ dw = 0 ∧ m = m' := by
  rw [bare]
  split_ifs with h
  · exact iff_of_false (by rintro ⟨⟩) fun hm ↦ h hm.1
  · rw [Except.ok.injEq]
    exact (and_iff_right (not_not.mp h)).symm

/-- A complete message that can be taken up is parsed, to a message with the slot and the sequence
number of its header. -/
theorem parse_of_supported (hlen : msg.length = 10 + dwLength msg) (h : Supported msg) :
    ∃ m, parsePcToRdr msg = .ok m ∧ m.slotSeq = slotSeq msg := by
  obtain ⟨t, l₀, l₁, l₂, l₃, slot, seq, b₇, b₈, b₉, payload, hpayload, rfl⟩ := exists_complete hlen
  rw [parse_complete hpayload]
  rcases h with ⟨ht, hle⟩ | ⟨ht, hzero⟩
  · have hle' : payload.length ≤ 512 := hpayload.trans_le hle
    obtain rfl : t = 0x6F := ht
    rw [Vec.ofBytes?_of_le hle']
    exact ⟨_, rfl, rfl⟩
  · have hzero' : leNat [l₀, l₁, l₂, l₃] = 0 := hzero
    have hbare : ∀ m : PcToRdr, bare (leNat [l₀, l₁, l₂, l₃]) m = .ok m :=
      fun m ↦ bare_eq_ok.mpr ⟨hzero', rfl⟩
    have ht' : t ∈ [(0x62 : UInt8), 0x63, 0x65, 0x72] := ht
    simp only [List.mem_cons, List.not_mem_nil, or_false] at ht'
    rcases ht' with rfl | rfl | rfl | rfl
    · exact ⟨_, hbare _, rfl⟩
    · exact ⟨_, hbare _, rfl⟩
    · exact ⟨_, hbare _, rfl⟩
    · exact ⟨_, hbare _, rfl⟩

theorem supported_of_parse {m : PcToRdr} (hlen : msg.length = 10 + dwLength msg)
    (h : parsePcToRdr msg = .ok m) : Supported msg := by
  obtain ⟨t, l₀, l₁, l₂, l₃, slot, seq, b₇, b₈, b₉, payload, hpayload, rfl⟩ := exists_complete hlen
  have hbare : ∀ {m' : PcToRdr}, bare (leNat [l₀, l₁, l₂, l₃]) m' = .ok m →
      t ∈ [(0x62 : UInt8), 0x63, 0x65, 0x72] →
      Supported (t :: l₀ :: l₁ :: l₂ :: l₃ :: slot :: seq :: b₇ :: b₈ :: b₉ :: payload) :=
    fun hok ht ↦ .inr ⟨ht, (bare_eq_ok.mp hok).1⟩
  rw [parse_complete hpayload] at h
  split_ifs at h with h₁ h₂ h₃ h₄ h₅
  · exact hbare h (by rw [h₁]; decide)
  · exact hbare h (by rw [h₂]; decide)
  · exact hbare h (by rw [h₃]; decide)
  · rcases hfits : (Vec.ofBytes? payload : Option (Vec 512)) with _ | apdu
    · rw [hfits] at h
      cases h
    · have hbytes := Vec.toBytes_of_ofBytes? hfits
      have hle : payload.length ≤ 512 := by
        rw [← hbytes]
        exact apdu.length_le
      exact .inl ⟨h₄, hpayload.symm.trans_le hle⟩
  · exact hbare h (by rw [h₅]; decide)

/-! ## The class driver -/

/-- What the driver answers to the bytes of a message. -/
theorem slotSeq_respond (bk : OpenPgpBackend β) (hlen : msg.length = 10 + dwLength msg)
    (s : Session β) : (slotSeq (respond (openPgpCcidDispatcher bk) msg s).1.toBytes = slotSeq msg) ↔
      Supported msg ∨ slotSeq msg = [0, 0] := by
  by_cases h : Supported msg
  · obtain ⟨m, hm, hslot⟩ := parse_of_supported hlen h
    rw [respond, hm]
    exact iff_of_true ((slotSeq_handleCcid bk m s).trans hslot) (.inl h)
  · have herror : ∃ e, parsePcToRdr msg = .error e := by
      rcases hm : parsePcToRdr msg with e | m
      · exact ⟨e, rfl⟩
      · exact absurd (supported_of_parse hlen hm) h
    obtain ⟨e, he⟩ := herror
    have hzero : slotSeq (rdrToPcSlotStatus 0 0 .cmdNotSupported).toBytes = [0, 0] :=
      slotSeq_frame _ _ _ _ _
    rw [respond, he, or_iff_right h]
    change slotSeq (rdrToPcSlotStatus 0 0 .cmdNotSupported).toBytes = _ ↔ _
    rw [hzero]
    exact eq_comm

/-- The header of a message is all that is asked of it. -/
theorem header_take {n : ℕ} (hn : 10 ≤ n) (hlen : 10 ≤ msg.length) :
    dwLength (msg.take n) = dwLength msg ∧ slotSeq (msg.take n) = slotSeq msg ∧
      (msg.take n).headD 0 = msg.headD 0 := by
  obtain ⟨t, l₀, l₁, l₂, l₃, slot, seq, b₇, b₈, b₉, payload, rfl⟩ := exists_header hlen
  obtain ⟨k, rfl⟩ := Nat.exists_eq_add_of_le' hn
  exact ⟨rfl, rfl, rfl⟩

/-- **Answers of the driver.** In every state of the driver in which a message is due, over any
backend, the answer that is queued carries the slot and the sequence number of the message exactly
when the message can be taken up, or carries zero for both. -/
theorem answer_echoes_iff (bk : OpenPgpBackend β) (p : CcidProtocolState (Session β)) (h : p.Due) :
    slotSeq (p.tryDispatch (openPgpCcidDispatcher bk)).txBuf.toBytes = slotSeq p.rxBuf.toBytes ↔
      Supported p.rxBuf.toBytes ∨ slotSeq p.rxBuf.toBytes = [0, 0] := by
  obtain ⟨hheader, hdue⟩ := h
  have hheader' : ¬ p.rxBuf.length < 10 := Nat.not_lt_of_le hheader
  by_cases hlong : ccidWireBufSize < 10 + dwLength p.rxBuf.toBytes
  · -- more is announced than fits, and more than a transfer may carry
    have hsize : ccidWireBufSize = 530 := rfl
    have hunsupported : ¬ Supported p.rxBuf.toBytes := by
      rintro (⟨-, hle⟩ | ⟨-, hzero⟩) <;> omega
    have hzero : slotSeq (rdrToPcSlotStatus 0 0 .cmdNotSupported).toBytes = [0, 0] :=
      slotSeq_frame _ _ _ _ _
    rw [CcidProtocolState.tryDispatch, if_neg hheader', or_iff_right hunsupported]
    dsimp only
    rw [if_pos hlong]
    dsimp only
    rw [hzero]
    exact eq_comm
  · have hcomplete := hdue.resolve_left hlong
    obtain ⟨hdw, hslot, hhead⟩ := header_take (Nat.le_add_right 10 (dwLength p.rxBuf.toBytes)) hheader
    have hlen : (p.rxBuf.toBytes.take (10 + dwLength p.rxBuf.toBytes)).length
        = 10 + dwLength (p.rxBuf.toBytes.take (10 + dwLength p.rxBuf.toBytes)) := by
      rw [hdw, List.length_take]
      exact Nat.min_eq_left hcomplete
    have hsize : ccidFraming.size p.rxBuf.toBytes = some (10 + dwLength p.rxBuf.toBytes) :=
      if_neg hheader'
    have hanswer := slotSeq_respond bk hlen p.dispatch
    rw [Supported, hdw, hslot, hhead] at hanswer
    rw [tryDispatch_complete hsize (Nat.le_of_not_lt hlong) hcomplete]
    exact hanswer

/-- A driver that has collected some bytes. -/
def collected (rxBuf : Bytes) : CcidProtocolState (Session PUnit) :=
  ⟨.new ⟨⟩, .truncated rxBuf, .empty, false⟩

theorem answer_echoes_slotStatus :
    slotSeq ((collected (slotStatusRequest 7)).tryDispatch
      (openPgpCcidDispatcher acceptingBackend)).txBuf.toBytes = slotSeq (slotStatusRequest 7) :=
  (answer_echoes_iff acceptingBackend (collected (slotStatusRequest 7))
    ⟨by decide, .inr (by decide)⟩).mpr (.inl (.inr ⟨by decide, rfl⟩))

/-- A message of a type that the card does not know, with sequence number 5. -/
def unknownMessage : Bytes := [0x6B, 0, 0, 0, 0, 0, 5, 0, 0, 0]

/-- It is answered with sequence number 0. -/
theorem unknownMessage_notEchoed : ¬ ∀ p : CcidProtocolState (Session PUnit), p.Due →
    slotSeq (p.tryDispatch (openPgpCcidDispatcher acceptingBackend)).txBuf.toBytes
      = slotSeq p.rxBuf.toBytes := by
  intro h
  have hanswer := h (collected unknownMessage) ⟨by decide, .inr (by decide)⟩
  revert hanswer
  decide

/-! ## The card service -/

/-- The types that the USB driver of the system answers by itself. -/
def PcToRdr.answeredInlineByUsbBao1x : PcToRdr → Bool
  | .iccPowerOn _ _ _ => true
  | .getSlotStatus _ _ => true
  | _ => false

/-- One turn of the loop of the card service. -/
def ccidDispatchOne (bk : OpenPgpBackend β) (bytes : Bytes) (s : Session β) :
    Option (Vec 530) × Session β :=
  match parsePcToRdr bytes with
  | .ok pc =>
    if pc.answeredInlineByUsbBao1x then (none, s)
    else
      let r := handleCcid bk pc s
      (some r.1, r.2)
  | .error _ =>
    (some (rdrToPcSlotStatus (bytes[5]?.getD 0) (bytes[6]?.getD 0) .cmdNotSupported), s)

/-- What is parsed is complete. -/
theorem complete_of_parse {m : PcToRdr} (hheader : 10 ≤ msg.length) (h : parsePcToRdr msg = .ok m) :
    msg.length = 10 + dwLength msg := by
  obtain ⟨t, l₀, l₁, l₂, l₃, slot, seq, b₇, b₈, b₉, payload, rfl⟩ := exists_header hheader
  by_contra hne
  have hpayload : payload.length ≠ leNat [l₀, l₁, l₂, l₃] := by
    have hdw : dwLength (t :: l₀ :: l₁ :: l₂ :: l₃ :: slot :: seq :: b₇ :: b₈ :: b₉ :: payload)
        = leNat [l₀, l₁, l₂, l₃] := rfl
    simp only [List.length_cons] at hne
    omega
  rw [parsePcToRdr] at h
  dsimp only at h
  rw [if_pos hpayload] at h
  cases h

/-- **Answers of the service.** Every answer to a message with a complete header carries the slot
and the sequence number of that header. -/
theorem ccidDispatchOne_echoes (bk : OpenPgpBackend β) (hheader : 10 ≤ msg.length) {answer : Vec 530}
    (h : (ccidDispatchOne bk msg s).1 = some answer) : slotSeq answer.toBytes = slotSeq msg := by
  rw [ccidDispatchOne] at h
  rcases hm : parsePcToRdr msg with e | m <;> rw [hm] at h
  · obtain rfl := Option.some.inj h
    obtain ⟨t, l₀, l₁, l₂, l₃, slot, seq, b₇, b₈, b₉, payload, rfl⟩ := exists_header hheader
    exact slotSeq_frame _ _ _ _ _
  · have hlen := complete_of_parse hheader hm
    obtain ⟨m', hm', hslot⟩ := parse_of_supported hlen (supported_of_parse hlen hm)
    obtain rfl : m = m' := Except.ok.inj (hm.symm.trans hm')
    dsimp only at h
    split_ifs at h
    obtain rfl := Option.some.inj h
    exact (slotSeq_handleCcid bk m s).trans hslot

end Galdralag.OpenPgp
