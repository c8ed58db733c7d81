/-!
# Instants in the database

Instants are stored as text. How an instant is printed and read is a library's business: `Rfc3339`
is a parameter of everything that reads or writes a table.
-/

set_option linter.all false

namespace Galdralag.Host

/-- Instants and their text form. -/
structure Rfc3339 (Time : Type) where
  parse : String → Option Time
  toRfc3339 : Time → String
  /-- The message for a text that is no instant. -/
  parseError : String → String

variable {Time : Type}

/-- What is printed is read back. -/
def Rfc3339.Lawful (clock : Rfc3339 Time) : Prop :=
  ∀ t, clock.parse (clock.toRfc3339 t) = some t

/-- A text that was printed. -/
def Rfc3339.Printed (clock : Rfc3339 Time) (s : String) : Prop := ∃ t, s = clock.toRfc3339 t

/-- Read an instant, or fail with `e`. -/
def Rfc3339.readOr {ε : Type} (clock : Rfc3339 Time) (e : ε) (s : String) : Except ε Time :=
  (clock.parse s).elim (.error e) .ok

theorem Rfc3339.Lawful.readOr {ε : Type} {clock : Rfc3339 Time} (h : clock.Lawful) (e : ε) (t : Time) :
    clock.readOr e (clock.toRfc3339 t) = .ok t := by
  rw [Rfc3339.readOr, h]
  rfl

/-- Instants that are their own text. -/
def textClock : Rfc3339 String where
  parse := some
  toRfc3339 := fun t ↦ t
  parseError := fun _ ↦ ""

theorem textClock_lawful : textClock.Lawful := fun _ ↦ rfl

end Galdralag.Host
