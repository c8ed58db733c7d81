import Galdralag.OpenPgp.SignatureGate
import Galdralag.OpenPgp.CommandCalls
import Galdralag.OpenPgp.Opening

/-!
# The life of a card

A card over the vault backend is in session or switched off. A power cycle loses the session and
whatever the backend holds in memory, and opens the backend again over the same world. When opening
fails, the card stays off until the next power cycle.
-/

set_option linter.all false

namespace Galdralag.OpenPgp

variable {W T : Type}

/-- A card: switched off over its world, or in session. -/
inductive Card (W T : Type) where
  | off (world : W)
  | on (session : Session (OpenPgpVaultBackend W T))

/-- What happens to a card. -/
inductive CardStep (T : Type) where
  | apdu (cmd : CommandApdu)
  /-- The session is reset. -/
  | reset
  /-- Power is lost and comes back; `open` gets the random generator and new PIN machines. -/
  | powerCycle (trng : T) (user admin : PinPolicyConfig)

namespace Card

variable (pf : CardPlatform W T)

/-- What outlives a power cycle. -/
def world : Card W T → W
  | .off w => w
  | .on s => s.backend.world

/-- Switch on. -/
def opened (w : W) (trng : T) (user admin : PinPolicyConfig) : Card W T :=
  match openCard pf (.new user) (.new admin) w trng with
  | (.ok _, b) => .on (.new b)
  | (.error _, b) => .off b.world

/-- One step. A card that is off answers nothing. -/
def step (c : Card W T) : CardStep T → Card W T
  | .powerCycle trng user admin => opened pf c.world trng user admin
  | .apdu cmd =>
    match c with
    | .on s => .on (handleApdu (vaultBackend pf) cmd s).2
    | .off w => .off w
  | .reset =>
    match c with
    | .on s => .on s.reset
    | .off w => .off w

/-- A whole run. -/
def run (c : Card W T) (steps : List (CardStep T)) : Card W T := steps.foldl (step pf) c

/-- The exchange a step makes with a card in session. -/
def exchange (c : Card W T) (a : CardStep T) : Option Exchange :=
  match c, a with
  | .on s, .apdu cmd => some (s.exchange (vaultBackend pf) cmd)
  | _, _ => none

theorem run_concat (c : Card W T) (steps : List (CardStep T)) (a : CardStep T) :
    c.run pf (steps ++ [a]) = (c.run pf steps).step pf a := List.foldl_concat _ _ _ _

/-- A property of steps that holds at every step of a run. -/
def Throughout (P : Card W T → CardStep T → Prop) : Card W T → List (CardStep T) → Prop
  | _, [] => True
  | c, a :: steps => P c a ∧ Throughout P (c.step pf a) steps

/-- **From steps to runs.** Where `P` entails `Q` for one step, it does for the steps of a run. -/
theorem Throughout.mono {P Q : Card W T → CardStep T → Prop} (h : ∀ c a, P c a → Q c a)
    {c : Card W T} {steps : List (CardStep T)} (hp : Throughout pf P c steps) :
    Throughout pf Q c steps := by
  induction steps generalizing c with
  | nil => trivial
  | cons a steps ih => exact ⟨h c a hp.1, ih hp.2⟩

/-- A card whose storages keep what is written always opens. -/
theorem opened_run {pf : CardPlatform W T} {objects pins cells : W → Memory} {pinLimit : ℕ}
    (hk : pf.Keeps objects pins cells pinLimit) (w : W) (trng : T) (user admin : PinPolicyConfig) :
    ∃ w', seedDefaultsIfFresh pf w = (.ok ⟨⟩, w') ∧ opened pf w trng user admin
      = .on (.new (.loaded pf pins cells (.new user) (.new admin) w' trng)) := by
  obtain ⟨w', hseed, -⟩ := seedDefaultsIfFresh_run hk.objectsFaithful (Nat.le_refl _) w
  exact ⟨w', hseed, by rw [opened, openCard_run hk (.new user) (.new admin) trng hseed]⟩

end Card

end Galdralag.OpenPgp
