import Mathlib.Data.List.Basic
import Mathlib.Data.Nat.Notation

/-!
# Streams of framed messages

A stream of messages arrives without marks between them: where a message ends is read off its own
head. `Framing` is such a rule, given by the size that the head of a string announces, and
`Splits stream msgs rest` says that the stream consists of the messages `msgs`, all complete, and an
unfinished rest. Every stream splits in exactly one way (`exists_splits`, `Splits.unique`), however
it was cut into packets, and the two ways in which a stream may grow by a packet are
`Splits.extend` and `Splits.complete`.
-/

set_option linter.all false

namespace Galdralag

variable {α : Type}

/-- A rule that reads the size of a message off its head. -/
structure Framing (α : Type) where
  /-- The size of the message at the front, once enough of it is there. -/
  size : List α → Option ℕ
  size_pos : ∀ {bs n}, size bs = some n → 0 < n
  /-- What follows does not change the size. -/
  size_append : ∀ {bs n} (cs : List α), size bs = some n → size (bs ++ cs) = some n
  /-- The message itself announces its size. -/
  size_take : ∀ {bs n}, size bs = some n → size (bs.take n) = some n

namespace Framing

variable (F : Framing α)

/-- A complete message. -/
def IsMessage (m : List α) : Prop := F.size m = some m.length

/-- A string that does not yet contain the whole message at its front. -/
def Unfinished (bs : List α) : Prop := ∀ n, F.size bs = some n → bs.length < n

/-- The stream consists of complete messages and an unfinished rest. -/
structure Splits (stream : List α) (msgs : List (List α)) (rest : List α) : Prop where
  eq : stream = msgs.flatten ++ rest
  messages : ∀ m ∈ msgs, F.IsMessage m
  unfinished : F.Unfinished rest

variable {F} {stream bs data rest rest' m : List α} {msgs msgs' : List (List α)}

theorem isMessage_take {n : ℕ} (h : F.size bs = some n) (hn : n ≤ bs.length) :
    F.IsMessage (bs.take n) := by
  rw [IsMessage, F.size_take h, List.length_take, Nat.min_eq_left hn]

theorem IsMessage.size_append (h : F.IsMessage m) (cs : List α) :
    F.size (m ++ cs) = some m.length := F.size_append cs h

/-- A string that begins with a message is not unfinished. -/
theorem IsMessage.not_unfinished (h : F.IsMessage m) (cs : List α) : ¬ F.Unfinished (m ++ cs) := by
  intro hu
  have hlt := hu m.length (h.size_append cs)
  rw [List.length_append] at hlt
  omega

/-- Two messages at the front of one string are the same. -/
theorem IsMessage.append_inj {m' cs cs' : List α} (h : F.IsMessage m) (h' : F.IsMessage m')
    (heq : m ++ cs = m' ++ cs') : m = m' ∧ cs = cs' := by
  have hsize := h.size_append cs
  rw [heq, h'.size_append cs'] at hsize
  exact List.append_inj heq (Option.some.inj hsize).symm

/-- **A stream splits in one way only.** -/
theorem Splits.unique (h : F.Splits stream msgs rest) (h' : F.Splits stream msgs' rest') :
    msgs = msgs' ∧ rest = rest' := by
  obtain ⟨rfl, hm, hu⟩ := h
  obtain ⟨heq, hm', hu'⟩ := h'
  induction msgs generalizing msgs' with
  | nil =>
    rcases msgs' with _ | ⟨m', msgs'⟩
    · exact ⟨rfl, heq⟩
    · rw [List.flatten_nil, List.nil_append, List.flatten_cons, List.append_assoc] at heq
      rw [heq] at hu
      exact absurd hu ((hm' m' List.mem_cons_self).not_unfinished _)
  | cons m msgs ih =>
    have hmsg := hm m List.mem_cons_self
    rw [List.flatten_cons, List.append_assoc] at heq
    rcases msgs' with _ | ⟨m', msgs'⟩
    · rw [List.flatten_nil, List.nil_append] at heq
      rw [← heq] at hu'
      exact absurd hu' (hmsg.not_unfinished _)
    · rw [List.flatten_cons, List.append_assoc] at heq
      obtain ⟨rfl, htail⟩ := hmsg.append_inj (hm' m' List.mem_cons_self) heq
      obtain ⟨rfl, rfl⟩ := ih (fun x hx ↦ hm x (List.mem_cons_of_mem m hx)) htail
        (fun x hx ↦ hm' x (List.mem_cons_of_mem m hx))
      exact ⟨rfl, rfl⟩

/-- Every stream splits. -/
theorem exists_splits (F : Framing α) (stream : List α) :
    ∃ msgs rest, F.Splits stream msgs rest := by
  induction hn : stream.length using Nat.strongRecOn generalizing stream with
  | ind n ih =>
    by_cases hu : F.Unfinished stream
    · exact ⟨[], stream, rfl, fun m hm ↦ absurd hm List.not_mem_nil, hu⟩
    · simp only [Unfinished, not_forall, Nat.not_lt] at hu
      obtain ⟨k, hk, hle⟩ := hu
      have hpos := F.size_pos hk
      have hlen : (stream.drop k).length < n := by
        rw [List.length_drop]
        omega
      obtain ⟨msgs, rest, heq, hmsgs, hrest⟩ := ih _ hlen _ rfl
      refine ⟨stream.take k :: msgs, rest, ?_, ?_, hrest⟩
      · rw [List.flatten_cons, List.append_assoc, ← heq, List.take_append_drop]
      · intro m hm
        rcases List.mem_cons.mp hm with rfl | hm
        · exact isMessage_take hk hle
        · exact hmsgs m hm

theorem splits_nil (F : Framing α) (h : F.size [] = none) : F.Splits [] [] [] := by
  refine ⟨rfl, fun m hm ↦ absurd hm List.not_mem_nil, fun n hn ↦ ?_⟩
  rw [h] at hn
  cases hn

/-- A packet that leaves the last message unfinished. -/
theorem Splits.extend (h : F.Splits stream msgs rest) (hu : F.Unfinished (rest ++ data)) :
    F.Splits (stream ++ data) msgs (rest ++ data) where
  eq := by rw [h.eq, List.append_assoc]
  messages := h.messages
  unfinished := hu

/-- A packet that completes the last message and begins the next one at most. -/
theorem Splits.complete (h : F.Splits stream msgs rest) (hm : F.IsMessage m)
    (heq : rest ++ data = m ++ rest') (hu : F.Unfinished rest') :
    F.Splits (stream ++ data) (msgs ++ [m]) rest' where
  eq := by
    rw [h.eq, List.append_assoc, heq, List.flatten_append, List.flatten_singleton,
      List.append_assoc]
  messages x hx := by
    rcases List.mem_append.mp hx with hx | hx
    · exact h.messages x hx
    · rwa [List.mem_singleton.mp hx]
  unfinished := hu

end Framing

end Galdralag
