import Galdralag.ContactStore.Record
import Mathlib.Logic.Function.Basic

/-!
# Records and their bytes

Writing a record and reading it back give the record; reading 256 bytes and writing the record give
the bytes, because the fields cover all of them (`exists_asBytes_eq`). A record whose checksum was
recomputed loads. When a byte before the checksum is replaced by another, or the checksum by
another, the record does not load any more: each step of the checksum register is injective, in the
register and in the byte, so two registers that differ once differ to the end
(`crc32c_append_cons`).
-/

set_option linter.all false

namespace Galdralag.Contacts

/-! ## The fields cover the record -/

theorem exhausts_stringRef : Exhausts StringRef.asBytes 6 := by
  intro bs hlen
  obtain ⟨⟨offset, len⟩, hbs⟩ := exhausts_u32le.append exhausts_u16le bs hlen
  exact ⟨⟨offset, len⟩, hbs⟩

namespace ContactRecord

/-- Every 256 bytes are those of a record. -/
theorem exists_asBytes_eq {bs : Bytes} (hlen : bs.length = 256) : ∃ r : ContactRecord, r.asBytes = bs := by
  have hbody := exhausts_u32le.append <| exhausts_byte.append <| exhausts_byte.append <|
    exhausts_byte.append <| exhausts_byte.append <| (exhausts_block 32).append <|
    (exhausts_block 12).append <| exhausts_u32le.append <| exhausts_u32le.append <|
    exhausts_u16le.append <| exhausts_u16le.append <| (exhausts_block 12).append <|
    (exhausts_block 16).append <| exhausts_u32le.append <| exhausts_u64le.append <|
    (exhausts_block 32).append <| exhausts_stringRef.append <| exhausts_stringRef.append <|
    exhausts_stringRef.append <| exhausts_stringRef.append <| exhausts_stringRef.append <|
    exhausts_stringRef.append <| exhausts_stringRef.append <| exhausts_stringRef.append <|
    exhausts_stringRef.append <| exhausts_stringRef.append <| exhausts_stringRef.append <|
    exhausts_stringRef.append <| exhausts_stringRef.append <| exhausts_stringRef.append <|
    exhausts_stringRef.append (exhausts_block 26)
  obtain ⟨⟨⟨magic, flags, keyAlgo, pinProtected, reserved0, fingerprint, callsign, dmrId, keyOffset,
    keyLen, reserved1, pinNonce, pinTag, lastFetched, sourceMap, pinVerifier, email, displayName,
    badgeNumber, organisation, department, role, note, radioAffiliation, street, country, postalCode,
    region, fluxerId, discordId, ircId, reserved2⟩, crc32c⟩, hbs⟩ := hbody.append exhausts_u32le bs hlen
  exact ⟨{
    magic, flags, keyAlgo, pinProtected, reserved0, fingerprint, callsign, dmrId, keyOffset, keyLen,
    reserved1, pinNonce, pinTag, lastFetched, sourceMap, pinVerifier, email, displayName, badgeNumber,
    organisation, department, role, note, radioAffiliation, street, country, postalCode, region,
    fluxerId, discordId, ircId, reserved2, crc32c }, hbs⟩

theorem asBytes_fromBytesUnchecked {bs : Bytes} (hlen : bs.length = 256) :
    (fromBytesUnchecked bs).asBytes = bs := by
  obtain ⟨r, rfl⟩ := exists_asBytes_eq hlen
  rw [fromBytesUnchecked_asBytes]

end ContactRecord

/-! ## The checksum register -/

/-- One bit through the checksum register. -/
def crcBit (c : UInt32) : UInt32 := if c &&& 1 = 1 then (c >>> 1) ^^^ 0xEDB88320 else c >>> 1

theorem toNat_shiftRight_one (c : UInt32) : (c >>> 1).toNat = c.toNat / 2 := by
  rw [UInt32.toNat_shiftRight, Nat.shiftRight_eq_div_pow]
  rfl

theorem and_one_eq_one (c : UInt32) : c &&& 1 = 1 ↔ c.toNat % 2 = 1 := by
  rw [← UInt32.toNat_inj, UInt32.toNat_and]
  change c.toNat &&& 1 = 1 ↔ _
  rw [Nat.and_one_is_mod]

/-- The top bit of the register shows whether the polynomial was added. -/
theorem xor_polynomial_ne (c d : UInt32) : (c >>> 1) ^^^ (0xEDB88320 : UInt32) ≠ d >>> 1 := by
  intro h
  have hpoly : (0xEDB88320 : UInt32) = (c >>> 1) ^^^ (d >>> 1) := by
    rw [← h, ← UInt32.xor_assoc, UInt32.xor_self, UInt32.zero_xor]
  have hlt : ∀ x : UInt32, (x >>> 1).toNat < 2 ^ 31 := by
    intro x
    have hx := x.toNat_lt
    rw [toNat_shiftRight_one]
    omega
  have hnat := congrArg UInt32.toNat hpoly
  rw [UInt32.toNat_xor] at hnat
  have hsmall := Nat.xor_lt_two_pow (hlt c) (hlt d)
  rw [← hnat] at hsmall
  revert hsmall
  decide

/-- The lowest bit and the others are the whole register. -/
theorem eq_of_shiftRight_one {c d : UInt32} (h : c >>> 1 = d >>> 1)
    (hbit : c &&& 1 = 1 ↔ d &&& 1 = 1) : c = d := by
  rw [and_one_eq_one, and_one_eq_one] at hbit
  have hnat := congrArg UInt32.toNat h
  rw [toNat_shiftRight_one, toNat_shiftRight_one] at hnat
  apply UInt32.toNat_inj.mp
  omega

theorem crcBit_injective : Function.Injective crcBit := by
  intro c d h
  rw [crcBit, crcBit] at h
  split_ifs at h with hc hd hd
  · exact eq_of_shiftRight_one ((UInt32.xor_left_inj _).mp h) (iff_of_true hc hd)
  · exact absurd h (xor_polynomial_ne c d)
  · exact absurd h.symm (xor_polynomial_ne d c)
  · exact eq_of_shiftRight_one h (iff_of_false hc hd)

theorem crcBits_injective : Function.Injective fun c ↦ (List.range 8).foldl (fun c _ ↦ crcBit c) c :=
  foldl_injective (fun _ ↦ crcBit_injective) _

theorem crcByte_injective (b : UInt8) : Function.Injective fun crc ↦ crcByte crc b := by
  intro c d h
  exact (UInt32.xor_left_inj _).mp (crcBits_injective h)

theorem crcByte_inj (crc : UInt32) {b b' : UInt8} (h : crcByte crc b = crcByte crc b') : b = b' := by
  have hword := (UInt32.xor_right_inj _).mp (crcBits_injective h)
  exact UInt8.toUInt32_inj.mp hword

/-- **One byte.** Bytes that differ in one place have different checksums. -/
theorem crc32c_append_cons (xs ys : Bytes) {b b' : UInt8}
    (h : crc32c (xs ++ b :: ys) = crc32c (xs ++ b' :: ys)) : b = b' := by
  have hregister := (UInt32.xor_left_inj _).mp h
  exact foldl_append_cons_inj crcByte_injective (fun _ _ _ ↦ crcByte_inj _) hregister

namespace ContactRecord

/-! ## Changed bytes -/

variable {r : ContactRecord}

/-- Bytes that end in a wrong checksum do not load. -/
theorem fromBytesVerified_of_ne {body : Bytes} {stored : Bytes} (hlen : stored.length = 4)
    (h : stored ≠ u32le (Contacts.crc32c body)) :
    fromBytesVerified (body ++ stored) = .error .corruptRecord := by
  have hcrc : recordCrcOk (body ++ stored) = false := by
    have hbody : (body ++ stored).length - 4 = body.length := by
      rw [List.length_append, hlen, Nat.add_sub_cancel]
    have hlong : ¬ (body ++ stored).length < 4 := by
      rw [List.length_append]
      omega
    rw [recordCrcOk, if_neg hlong, hbody, List.take_left, List.drop_left, beq_eq_false_iff_ne]
    intro heq
    rw [heq, u32le_u32OfLe hlen] at h
    exact h rfl
  rw [fromBytesVerified, hcrc]
  rfl

/-- A record that was given its checksum loads. -/
theorem fromBytesVerified_recomputeCrc (halgo : ∃ a, KeyAlgo.fromWire r.keyAlgo = .ok a) :
    fromBytesVerified r.recomputeCrc.asBytes = .ok r.recomputeCrc := by
  have hload : (fromBytesUnchecked r.recomputeCrc.asBytes).Loadable := by
    rw [fromBytesUnchecked_asBytes]
    exact fun _ ↦ halgo
  rw [fromBytesVerified_of_loadable (recordCrcOk_recomputeCrc r) hload, fromBytesUnchecked_asBytes]

/-- A byte before the checksum that is replaced by another. -/
theorem fromBytesVerified_set {i : ℕ} (hi : i < 252) {b : UInt8}
    (hb : r.recomputeCrc.asBytes[i]? ≠ some b) :
    fromBytesVerified (r.recomputeCrc.asBytes.set i b) = .error .corruptRecord := by
  have hlen : i < r.recomputeCrc.body.length := by
    rw [length_body]
    exact hi
  rw [asBytes, List.getElem?_append_left hlen, List.getElem?_eq_getElem hlen] at hb
  rw [asBytes, List.set_append_left _ _ hlen, crc32c_recomputeCrc]
  refine fromBytesVerified_of_ne (length_u32le _) fun heq ↦ hb ?_
  have hcrc := u32le_injective heq
  rw [List.set_eq_take_append_cons_drop, if_pos hlen] at hcrc
  have hsplit : r.recomputeCrc.body = r.recomputeCrc.body.take i ++
      r.recomputeCrc.body[i] :: r.recomputeCrc.body.drop (i + 1) := by
    rw [← List.drop_eq_getElem_cons hlen, List.take_append_drop]
  nth_rewrite 1 [hsplit] at hcrc
  rw [crc32c_append_cons _ _ hcrc]

/-- **The record codec.** -/
theorem record_codec :
    (∀ r : ContactRecord, fromBytesUnchecked r.asBytes = r) ∧
    (∀ bytes : Block 256, (fromBytesUnchecked bytes.toBytes).asBytes = bytes.toBytes) ∧
    ∀ r : ContactRecord, (∃ a, KeyAlgo.fromWire r.keyAlgo = .ok a) →
      fromBytesVerified r.recomputeCrc.asBytes = .ok r.recomputeCrc ∧
      (∀ stored : Block 4, stored.toBytes ≠ u32le r.recomputeCrc.crc32c →
        fromBytesVerified (r.recomputeCrc.body ++ stored.toBytes) = .error .corruptRecord) ∧
      ∀ i < 252, ∀ b, r.recomputeCrc.asBytes[i]? ≠ some b →
        fromBytesVerified (r.recomputeCrc.asBytes.set i b) = .error .corruptRecord := by
  refine ⟨fromBytesUnchecked_asBytes, fun bytes ↦ asBytes_fromBytesUnchecked bytes.length_toBytes,
    fun r halgo ↦ ⟨fromBytesVerified_recomputeCrc halgo, fun stored hstored ↦ ?_,
      fun i hi b hb ↦ fromBytesVerified_set hi hb⟩⟩
  rw [crc32c_recomputeCrc] at hstored
  exact fromBytesVerified_of_ne stored.length_toBytes hstored

end ContactRecord

end Galdralag.Contacts
