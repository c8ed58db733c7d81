import Galdralag.Foundation.Fallible
import Galdralag.Foundation.Memory

/-!
# The hardware abstraction layer

The firmware reaches its storage, its attempt counters and its wipe hooks through traits. Each
trait is a dictionary of operations over a world `W`: the handles a program holds may share one
device, so an operation acts on the whole world and not on a private object.

What a caller may rely on is stated separately, as the law structures `Faithful` and `Persistent`.
The two drivers of the repository, the in-memory test double and the resistive-memory driver,
are given at the end with the laws they meet.
-/

set_option linter.all false

namespace Galdralag

/-- Hardware or bus-level failures. -/
inductive HalError where
  | bus
  | eccUncorrectable
  | timeout
  | denied
  | needsProvisioning
  | unsupported
  deriving DecidableEq, Repr

/-- The largest 32-bit unsigned integer. -/
def u32Max : UInt32 := 0xFFFFFFFF

/-- 32-bit addition that stops at the largest value. -/
def saturatingAdd (a b : UInt32) : UInt32 := if a.toNat + b.toNat < 2 ^ 32 then a + b else u32Max

/-- 32-bit subtraction that stops at zero. -/
def saturatingSub (a b : UInt32) : UInt32 := if b ≤ a then a - b else 0

theorem toNat_saturatingAdd (a b : UInt32) :
    (saturatingAdd a b).toNat = min (a.toNat + b.toNat) (2 ^ 32 - 1) := by
  have hmax : u32Max.toNat = 2 ^ 32 - 1 := rfl
  rw [saturatingAdd]
  split_ifs with h
  · rw [UInt32.toNat_add]; omega
  · omega

theorem le_toNat_saturatingAdd (a b : UInt32) : a.toNat ≤ (saturatingAdd a b).toNat := by
  have ha := a.toNat_lt
  rw [toNat_saturatingAdd]; omega

theorem toNat_saturatingSub (a b : UInt32) :
    (saturatingSub a b).toNat = a.toNat - b.toNat := by
  rw [saturatingSub]
  split_ifs with h
  · exact UInt32.toNat_sub_of_le _ _ h
  · have hlt : a.toNat < b.toNat := UInt32.lt_iff_toNat_lt.mp (UInt32.not_le.mp h)
    rw [UInt32.toNat_zero]; omega

/-! ## The traits -/

/-- Hardware-backed attempt counter in the always-on domain. -/
structure MonotonicCounter (W : Type) where
  read : W → Except HalError UInt32
  /-- Consumes one attempt and reports the new count. -/
  increment : Fallible W HalError UInt32
  /-- Refunds the reservation made by `increment` after a successful verification; hardware that
  cannot roll back answers `denied`. -/
  refundOnSuccess : Fallible W HalError PUnit := .fail .denied

/-- Byte-level access to the on-chip vault. -/
structure VaultStorage (W : Type) where
  /-- The `len` bytes from `offset` on. -/
  read : W → ℕ → ℕ → Except HalError Bytes
  write : ℕ → Bytes → Fallible W HalError PUnit

/-- The hardware random generator. -/
structure HardwareTrng (T : Type) where
  fillBytes : (n : ℕ) → T → Block n × T
  tryFillBytes : (n : ℕ) → Fallible T PUnit (Block n)

/-- Callback into vault or boot that performs the wipe. -/
abbrev ZeroisationTrigger (W : Type) := W → W

variable {W : Type}

/-! ## The laws -/

/-- A storage that keeps what is written below `limit`: reads return the bytes of a memory,
writes succeed and patch it. -/
structure VaultStorage.Faithful (storage : VaultStorage W) (limit : ℕ) (memory : W → Memory) :
    Prop where
  read_eq : ∀ w off len, off + len ≤ limit →
    storage.read w off len = .ok ((memory w).window off len)
  write_ok : ∀ w off bs, off + bs.length ≤ limit → (storage.write off bs w).1 = .ok ⟨⟩
  memory_write : ∀ w off bs, off + bs.length ≤ limit →
    memory (storage.write off bs w).2 = (memory w).patch off bs

/-- A storage that is left as it was by a write it refuses. -/
def VaultStorage.RefusesWhole (storage : VaultStorage W) (memory : W → Memory) : Prop :=
  ∀ w off bs e w', storage.write off bs w = (.error e, w') → memory w' = memory w

/-- A counter that persists its value: `increment` steps it up, saturating, and reports it, and
`refundOnSuccess` steps it down. -/
structure MonotonicCounter.Persistent (counter : MonotonicCounter W) (value : W → UInt32) :
    Prop where
  read_eq : ∀ w, counter.read w = .ok (value w)
  increment_eq : ∀ w, (counter.increment w).1 = .ok (saturatingAdd (value w) 1)
  value_increment : ∀ w, value (counter.increment w).2 = saturatingAdd (value w) 1
  refund_ok : ∀ w, (counter.refundOnSuccess w).1 = .ok ⟨⟩
  value_refund : ∀ w, value (counter.refundOnSuccess w).2 = saturatingSub (value w) 1

/-- A counter that persists its value but whose operations may fail, before or after the new value
was stored. -/
structure MonotonicCounter.PersistentOrFails (counter : MonotonicCounter W) (value : W → UInt32) :
    Prop where
  increment_ok : ∀ {w c w'}, counter.increment w = (.ok c, w') →
    c = saturatingAdd (value w) 1 ∧ value w' = c
  increment_error : ∀ {w e w'}, counter.increment w = (.error e, w') →
    value w' = value w ∨ value w' = saturatingAdd (value w) 1
  value_refund : ∀ w, value (counter.refundOnSuccess w).2 = value w ∨
    value (counter.refundOnSuccess w).2 = saturatingSub (value w) 1

theorem VaultStorage.Faithful.write_eq {storage : VaultStorage W} {limit : ℕ}
    {memory : W → Memory} (h : storage.Faithful limit memory) (w : W) {off : ℕ} {bs : Bytes}
    (hb : off + bs.length ≤ limit) :
    storage.write off bs w = (.ok ⟨⟩, (storage.write off bs w).2) :=
  Prod.ext (h.write_ok w off bs hb) rfl

theorem MonotonicCounter.Persistent.increment_run {counter : MonotonicCounter W}
    {value : W → UInt32} (h : counter.Persistent value) (w : W) :
    counter.increment w = (.ok (saturatingAdd (value w) 1), (counter.increment w).2) :=
  Prod.ext (h.increment_eq w) rfl

/-- A counter that never fails is one that may fail. -/
theorem MonotonicCounter.Persistent.orFails {counter : MonotonicCounter W} {value : W → UInt32}
    (h : counter.Persistent value) : counter.PersistentOrFails value where
  increment_ok := by
    intro w c w' hw
    rw [h.increment_run w] at hw
    obtain ⟨hc, rfl⟩ := Prod.mk.inj hw
    have hc : saturatingAdd (value w) 1 = c := Except.ok.inj hc
    exact ⟨hc.symm, (h.value_increment w).trans hc⟩
  increment_error := by
    intro w e w' hw
    rw [h.increment_run w] at hw
    cases (Prod.mk.inj hw).1
  value_refund w := .inr (h.value_refund w)

/-! ## The test doubles -/

/-- Deterministic counter of the tests; `failNext` makes the next increment fail. -/
structure FakeMonotonicCounter where
  n : UInt32
  failNext : Bool
  deriving DecidableEq

/-- The counter operations of the test double. -/
def fakeMonotonicCounter : MonotonicCounter FakeMonotonicCounter where
  read c := .ok c.n
  increment := fun c ↦
    if c.failNext then (.error .bus, { c with failNext := false })
    else (.ok (saturatingAdd c.n 1), { c with n := saturatingAdd c.n 1 })
  refundOnSuccess := fun c ↦ (.ok ⟨⟩, { c with n := saturatingSub c.n 1 })

/-- In-memory vault backing store of `size` bytes. -/
structure FakeVaultStorage where
  mem : Bytes
  failNextWrite : Bool
  deriving DecidableEq

/-- The storage operations of the test double. -/
def fakeVaultStorage : VaultStorage FakeVaultStorage where
  read s offset len :=
    if offset + len > s.mem.length then .error .denied
    else .ok ((s.mem.drop offset).take len)
  write offset data := fun s ↦
    if s.failNextWrite then (.error .eccUncorrectable, { s with failNextWrite := false })
    else if offset + data.length > s.mem.length then (.error .denied, s)
    else (.ok ⟨⟩, { s with
      mem := s.mem.take offset ++ data ++ s.mem.drop (offset + data.length) })

/-- Vault storage stub that rejects every access. -/
def unsupportedVaultStorage : VaultStorage W where
  read _ _ _ := .error .unsupported
  write _ _ := .fail .unsupported

/-! ## The resistive-memory drivers

Both drivers address the same memory, the storage from a base address and each counter through
one little-endian cell. -/

/-- Storage over the resistive memory, from physical address `physBase` on. -/
def rramVaultStorage (physBase : ℕ) : VaultStorage Memory where
  read rram offset len := .ok (rram.window (physBase + offset) len)
  write offset data := .modify fun rram ↦ rram.patch (physBase + offset) data

/-- The value of a little-endian counter cell. -/
def rramCell (phys : ℕ) (rram : Memory) : UInt32 := u32OfLe (rram.window phys 4)

/-- Attempt counter in the resistive memory: one 32-bit little-endian cell at `phys`. -/
def rramMonotonicCounter (phys : ℕ) : MonotonicCounter Memory where
  read rram := .ok (rramCell phys rram)
  increment := do
    let v ← .reading fun rram ↦ .ok (saturatingAdd (rramCell phys rram) 1)
    .modify fun rram ↦ rram.patch phys (u32le v)
    pure v
  refundOnSuccess := do
    let v ← .reading fun rram ↦ .ok (saturatingSub (rramCell phys rram) 1)
    .modify fun rram ↦ rram.patch phys (u32le v)

@[simp] theorem rramCell_patch (phys : ℕ) (rram : Memory) (v : UInt32) :
    rramCell phys (rram.patch phys (u32le v)) = v := by
  have h := Memory.window_patch rram phys (u32le v)
  rw [length_u32le] at h
  rw [rramCell, h, u32OfLe_u32le]

/-- A counter cell apart from the one that is written. -/
theorem rramCell_patch_of_disjoint {phys phys' : ℕ} (h : phys + 4 ≤ phys' ∨ phys' + 4 ≤ phys)
    (rram : Memory) (v : UInt32) : rramCell phys (rram.patch phys' (u32le v)) = rramCell phys rram := by
  rw [rramCell, rramCell, Memory.window_patch_of_disjoint (by rw [length_u32le]; exact h)]

/-- The resistive-memory driver refuses no write. -/
theorem rramVaultStorage_refusesWhole (physBase : ℕ) (memory : Memory → Memory) :
    (rramVaultStorage physBase).RefusesWhole memory := by
  intro w off bs e w' h
  cases h

/-- The resistive-memory driver keeps what is written, at every address. -/
theorem rramVaultStorage_faithful (physBase limit : ℕ) :
    (rramVaultStorage physBase).Faithful limit fun rram a ↦ rram (physBase + a) where
  read_eq rram off len _ := by
    simp only [rramVaultStorage, Memory.window, Nat.add_assoc]
  write_ok _ _ _ _ := rfl
  memory_write rram off bs _ := by
    funext a
    simp only [rramVaultStorage, Fallible.modify_apply, Memory.patch, Nat.add_le_add_iff_left,
      Nat.add_sub_add_left]

/-- The resistive-memory counter persists its value. -/
theorem rramMonotonicCounter_persistent (phys : ℕ) :
    (rramMonotonicCounter phys).Persistent (rramCell phys) where
  read_eq _ := rfl
  increment_eq _ := rfl
  value_increment rram := rramCell_patch phys rram _
  refund_ok _ := rfl
  value_refund rram := rramCell_patch phys rram _

/-- The persistent counter on bare values. -/
def valueCounter : MonotonicCounter UInt32 where
  read v := .ok v
  increment := fun v ↦ (.ok (saturatingAdd v 1), saturatingAdd v 1)
  refundOnSuccess := fun v ↦ (.ok ⟨⟩, saturatingSub v 1)

theorem valueCounter_persistent : valueCounter.Persistent id where
  read_eq _ := rfl
  increment_eq _ := rfl
  value_increment _ := rfl
  refund_ok _ := rfl
  value_refund _ := rfl

/-- The counter of the tests persists its value and fails when told to. -/
theorem fakeMonotonicCounter_persistentOrFails :
    fakeMonotonicCounter.PersistentOrFails FakeMonotonicCounter.n where
  increment_ok := by
    rintro ⟨n, _ | _⟩ c w' hw
    · obtain ⟨hc, rfl⟩ := Prod.mk.inj hw
      exact ⟨(Except.ok.inj hc).symm, Except.ok.inj hc⟩
    · cases (Prod.mk.inj hw).1
  increment_error := by
    rintro ⟨n, _ | _⟩ e w' hw
    · cases (Prod.mk.inj hw).1
    · obtain ⟨-, rfl⟩ := Prod.mk.inj hw
      exact .inl rfl
  value_refund _ := .inr rfl

end Galdralag
