import Galdralag.Foundation.Faults
import Galdralag.OpenPgp.ObjectMap
import Galdralag.OpenPgp.Opening

/-!
# Opening with reads that fail

Whether a card is new is told from one read of the header of its object store, and a read that fails
is taken for a header that is missing. What follows then is up to the later reads. Each default is
written after the header was read once more, successfully this time, and the slots in front of its
object; so a fault that passes puts the attributes, the PIN lengths and the signature counter of a
card in use back to their first values.
-/

set_option linter.all false

namespace Galdralag.OpenPgp

/-- A computation whose reads may fail. -/
abbrev Risk (σ ε α : Type) : Type := Fallible (Scripted HalError σ) ε α

/-! ## The code with reads that may fail -/

namespace Risky

variable {W T : Type}

section Store

variable (d : DoStore W)

def probe : Risk W DoStoreError Bool := do
  let hdr ← .mapError .io (.risky fun w ↦ d.storage.read w d.base DoStore.headerLen)
  pure (decide (hdr.take 4 = DoStore.magic ∧ hdr[4]? = some DoStore.version))

def initIfNeeded : Risk W DoStoreError PUnit := do
  let valid ← probe d
  if valid then pure ⟨⟩
  else .mapError .io (.safely (d.storage.write d.base DoStore.emptyRegion))

def readSlot (index : ℕ) : Risk W DoStoreError Bytes :=
  if index ≥ DoStore.slotCount then .fail (.io .denied)
  else .mapError .io (.risky fun w ↦ d.storage.read w (d.slotOffset index) DoStore.slotBytes)

/-- The payload of the first of the given slots that has the tag; nothing if a slot cannot be read.
-/
def readFrom {ε : Type} (tag : UInt16) : List ℕ → Risk W ε (Option (Vec 254))
  | [] => pure none
  | i :: rest => do
    match ← (.attempt (readSlot d i) : Risk W ε (Except DoStoreError Bytes)) with
    | .error _ => pure none
    | .ok slot =>
      if DoStore.slotTag slot = tag then pure (DoStore.slotPayload slot) else readFrom tag rest

def read {ε : Type} (tag : UInt16) : Risk W ε (Option (Vec 254)) := do
  match ← (.attempt (probe d) : Risk W ε (Except DoStoreError Bool)) with
  | .ok true => readFrom d tag (List.range DoStore.slotCount)
  | _ => pure none

def findFrom (tag : UInt16) (empty : Option ℕ) : List ℕ → Risk W DoStoreError (Option ℕ)
  | [] => pure empty
  | i :: rest => do
    let slot ← readSlot d i
    if DoStore.slotTag slot = tag then pure (some i)
    else findFrom tag (if DoStore.slotTag slot = 0 then empty.or (some i) else empty) rest

def write (tag : UInt16) (value : Bytes) : Risk W DoStoreError PUnit := do
  .require (value.length ≤ 254) .valueTooLong
  initIfNeeded d
  let found ← findFrom d tag none (List.range DoStore.slotCount)
  match found with
  | some idx => .safely (d.writeSlot idx (DoStore.encodeSlot tag value))
  | none => .fail .full

end Store

variable (pf : CardPlatform W T)

def seedDo (tag : UInt16) (value : Bytes) : Risk W HalError PUnit :=
  .orElse (write pf.doStore tag value) .bus

def initProductionDefaults : Risk W HalError PUnit := do
  seedDo pf 0xC1 (defaultAttributes .sig).toBytes.toBytes
  seedDo pf 0xC2 (defaultAttributes .dec).toBytes.toBytes
  seedDo pf 0xC3 (defaultAttributes .aut).toBytes.toBytes
  seedDo pf 0xC4 defaultPwStatusBytes
  seedDo pf 0x93 [0x00, 0x00, 0x00]

/-- A header that cannot be read counts as missing. -/
def seedDefaultsIfFresh : Risk W HalError PUnit := do
  match ← (.attempt (probe pf.doStore) : Risk W HalError (Except DoStoreError Bool)) with
  | .ok true => pure ⟨⟩
  | _ => initProductionDefaults pf

def onWorld {ε α : Type} (m : Risk W ε α) : Risk (OpenPgpVaultBackend W T) ε α :=
  .within OpenPgpVaultBackend.world (fun w b ↦ { b with world := w }) m

def loadPinVerifiersFromStorage : Risk (OpenPgpVaultBackend W T) HalError PUnit := do
  let uv ← .risky fun b ↦ pf.pinStorage.read b.world (pf.pinOff .user) 32
  let av ← .risky fun b ↦ pf.pinStorage.read b.world (pf.pinOff .admin) 32
  .safely (.modify fun b ↦ { b with userVerifier := .ofBytes 32 uv, adminVerifier := .ofBytes 32 av })

def loadKey (slot : OpenPgpKeySlot) : Risk (OpenPgpVaultBackend W T) HalError PUnit := do
  let cell ← .risky fun b ↦
    pf.keyStorage.read b.world (sealedOffset (purposeOf slot)) sealedBlobBytes
  let data ← onWorld (read pf.doStore (attributesTag slot))
  .safely (.modify fun b ↦
    b.setKeys slot (unsealedKeys pf (.ofBytes 93 cell) slot (attributesOf slot data)))

def loadPrivateKeys : Risk (OpenPgpVaultBackend W T) HalError PUnit := do
  .safely (.modify fun b ↦ { b with keys := fun _ ↦ .empty })
  loadKey pf .sig
  loadKey pf .dec
  loadKey pf .aut

/-- Open a card while reads fail as the script says. -/
def openCard (userMachine adminMachine : PinPolicyMachine) (world : W) (trng : T)
    (script : List (Option HalError)) :
    Except HalError PUnit × Scripted HalError (OpenPgpVaultBackend W T) :=
  (do
    onWorld (seedDefaultsIfFresh pf)
    loadPinVerifiersFromStorage pf
    loadPrivateKeys pf : Risk (OpenPgpVaultBackend W T) HalError PUnit)
  (.blank userMachine adminMachine world trng, script)

end Risky

/-! ## Without faults -/

section WithoutFaults

open Fallible

variable {W T : Type} {d : DoStore W} {pf : CardPlatform W T}

theorem withoutFaults_probe : WithoutFaults (.reading d.probe) (Risky.probe d) := by
  intro w
  change _ = (d.probe w, (w, []))
  rw [DoStore.probe, Risky.probe]
  have hread := WithoutFaults.mapError (WithoutFaults.risky fun w ↦ d.storage.read w d.base DoStore.headerLen)
    DoStoreError.io w
  rw [bind_apply, hread, Fallible.mapError, reading_apply]
  rcases d.storage.read w d.base DoStore.headerLen with e | hdr <;> rfl

theorem withoutFaults_initIfNeeded : WithoutFaults d.initIfNeeded (Risky.initIfNeeded d) := by
  refine withoutFaults_probe.bind fun valid ↦ ?_
  cases valid
  · exact (WithoutFaults.safely _).mapError _
  · exact .pure _

theorem withoutFaults_readSlot (i : ℕ) : WithoutFaults (.reading (d.readSlot i)) (Risky.readSlot d i) := by
  intro w
  rw [reading_apply, DoStore.readSlot, Risky.readSlot]
  split_ifs
  · rfl
  · exact WithoutFaults.mapError (WithoutFaults.risky _) _ w

theorem withoutFaults_readFrom {ε : Type} (tag : UInt16) (l : List ℕ) :
    WithoutFaults (.gets fun w ↦ d.readFrom tag w l : Fallible W ε _) (Risky.readFrom d tag l) := by
  induction l with
  | nil => exact fun _ ↦ rfl
  | cons i l ih =>
    intro w
    have hslot := (withoutFaults_readSlot (d := d) i).attempt (γ := ε) w
    rw [Risky.readFrom, bind_of_ok hslot, gets_apply, DoStore.readFrom, reading_apply]
    rcases d.readSlot i w with e | slot
    · rfl
    · dsimp only
      split_ifs
      · rfl
      · exact ih w

theorem withoutFaults_read {ε : Type} (tag : UInt16) :
    WithoutFaults (.gets (d.read tag) : Fallible W ε _) (Risky.read d tag) := by
  intro w
  have hprobe := (withoutFaults_probe (d := d)).attempt (γ := ε) w
  rw [Risky.read, bind_of_ok hprobe, gets_apply, DoStore.read, reading_apply]
  rcases d.probe w with e | _ | _
  · rfl
  · rfl
  · exact withoutFaults_readFrom tag _ w

theorem withoutFaults_findFrom (tag : UInt16) (l : List ℕ) (empty : Option ℕ) :
    WithoutFaults (.reading fun w ↦ d.findFrom tag w empty l) (Risky.findFrom d tag empty l) := by
  induction l generalizing empty with
  | nil => exact fun _ ↦ rfl
  | cons i l ih =>
    intro w
    have hslot := withoutFaults_readSlot (d := d) i w
    rw [Risky.findFrom, reading_apply, DoStore.findFrom, bind_apply, hslot, reading_apply]
    rcases d.readSlot i w with e | slot
    · rfl
    · rw [ok_bind]
      dsimp only
      split_ifs
      · rfl
      · exact ih _ w
      · exact ih _ w

theorem withoutFaults_write (tag : UInt16) (value : Bytes) :
    WithoutFaults (d.write tag value) (Risky.write d tag value) := by
  refine (WithoutFaults.require _ _).bind fun _ ↦ withoutFaults_initIfNeeded.bind fun _ ↦ ?_
  refine (withoutFaults_findFrom tag _ none).bind fun found ↦ ?_
  cases found with
  | none => exact .fail _
  | some i => exact .safely _

theorem withoutFaults_seedDefaultsIfFresh :
    WithoutFaults (seedDefaultsIfFresh pf) (Risky.seedDefaultsIfFresh pf) := by
  have hseed : ∀ tag value, WithoutFaults (seedDo pf tag value) (Risky.seedDo pf tag value) :=
    fun tag value ↦ (withoutFaults_write tag value).orElse _
  have hinit : WithoutFaults (initProductionDefaults pf) (Risky.initProductionDefaults pf) := by
    refine (hseed _ _).bind fun _ ↦ (hseed _ _).bind fun _ ↦ (hseed _ _).bind fun _ ↦ ?_
    exact (hseed _ _).bind fun _ ↦ hseed _ _
  intro w
  have hprobe := (withoutFaults_probe (d := pf.doStore)).attempt (γ := HalError) w
  rw [Risky.seedDefaultsIfFresh, bind_of_ok hprobe, seedDefaultsIfFresh, reading_apply]
  rcases pf.doStore.probe w with e | _ | _
  · exact hinit w
  · exact hinit w
  · rfl

/-- **Without faults** a card opens as it does with reads that never fail. -/
theorem openCard_withoutFaults (user admin : PinPolicyMachine) (w : W) (trng : T) :
    Risky.openCard pf user admin w trng []
      = ((openCard pf user admin w trng).1, ((openCard pf user admin w trng).2, [])) := by
  have hpins : WithoutFaults (loadPinVerifiersFromStorage pf) (Risky.loadPinVerifiersFromStorage pf) :=
    (WithoutFaults.risky _).bind fun _ ↦ (WithoutFaults.risky _).bind fun _ ↦ .safely _
  have hkey : ∀ slot, WithoutFaults (loadKey pf slot) (Risky.loadKey pf slot) := by
    intro slot
    refine (WithoutFaults.risky _).bind fun cell ↦ ?_
    have hread : WithoutFaults (.gets fun b : OpenPgpVaultBackend W T ↦
        pf.doStore.read (attributesTag slot) b.world : Fallible _ HalError _)
        (Risky.onWorld (Risky.read pf.doStore (attributesTag slot))) :=
      fun b ↦ (withoutFaults_read (attributesTag slot)).within OpenPgpVaultBackend.world
        (fun w b ↦ { b with world := w }) b
    have hload := hread.bind fun data ↦ WithoutFaults.safely (.modify fun b : OpenPgpVaultBackend W T ↦
      b.setKeys slot (unsealedKeys pf (.ofBytes 93 cell) slot (attributesOf slot data)) :
      Fallible _ HalError _)
    exact hload
  have hkeys : WithoutFaults (loadPrivateKeys pf) (Risky.loadPrivateKeys pf) :=
    (WithoutFaults.safely _).bind fun _ ↦ (hkey .sig).bind fun _ ↦ (hkey .dec).bind fun _ ↦ hkey .aut
  have hseed : WithoutFaults (seedDefaultsIfFresh pf) (Risky.seedDefaultsIfFresh pf) :=
    withoutFaults_seedDefaultsIfFresh
  have hopen := hseed.within OpenPgpVaultBackend.world
    (fun w (b : OpenPgpVaultBackend W T) ↦ { b with world := w })
  exact (hopen.bind fun _ ↦ hpins.bind fun _ ↦ hkeys) _

end WithoutFaults

end Galdralag.OpenPgp
