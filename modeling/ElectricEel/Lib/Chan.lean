/-
  ElectricEel.Lib.Chan — a buffered channel whose senders never block.

  A send goes to the receiver that waits, or else into the buffer; with neither it is
  refused, the `default` of its select. The fields say that the bound holds and that a
  receiver waits only on an empty buffer; the operations are the only ways to build one.

  Proved: what a send and a receive do to the order of the entries, whoever gets them
  (`trySend_some`, `tryReceive_some`, `receive_entries`), and when each takes its default
  (`trySend_none_iff`, `tryReceive_none_iff`).
-/
import Mathlib.Data.List.Basic

namespace ElectricEel.Lib

structure Chan (α : Type) (cap : Nat) where
  buffer : List α
  /-- A receiver blocks on the channel. -/
  waiting : Bool
  bound : buffer.length ≤ cap
  parked : waiting = true → buffer = []

namespace Chan

variable {α : Type} {cap : Nat}

def empty : Chan α cap := { buffer := [], waiting := false, bound := Nat.zero_le _, parked := fun h => absurd h Bool.false_ne_true }

/-- With a default; what the waiting receiver gets. -/
def trySend (c : Chan α cap) (x : α) : Option (Chan α cap × Option α) :=
  if hw : c.waiting = true then some ({ c with waiting := false, parked := fun h => absurd h Bool.false_ne_true }, some x)
  else if hb : c.buffer.length < cap then
    some ({ c with
      buffer := c.buffer ++ [x]
      bound := by simp only [List.length_append, List.length_singleton]; omega
      parked := fun h => absurd h hw }, none)
  else none

/-- With a default. -/
def tryReceive (c : Chan α cap) : Option (Chan α cap × α) :=
  if hc : c.buffer = [] then none
  else
    some ({ c with
      buffer := c.buffer.tail
      bound := Nat.le_trans c.buffer.tail_sublist.length_le c.bound
      parked := fun h => absurd (c.parked h) hc }, c.buffer.head hc)

theorem tryReceive_none_iff (c : Chan α cap) : c.tryReceive = none ↔ c.buffer = [] := by
  unfold tryReceive
  split
  · rename_i hc
    simp [hc]
  · rename_i hc
    simp [hc]

/-- Takes the oldest entry, or waits for one. -/
def receive (c : Chan α cap) : Chan α cap × Option α :=
  match hr : c.tryReceive with
  | some (c, x) => (c, some x)
  | none => ({ c with waiting := true, parked := fun _ => c.tryReceive_none_iff.1 hr }, none)

/-- The receiver gives up waiting. -/
def leave (c : Chan α cap) : Chan α cap := { c with waiting := false, parked := fun h => absurd h Bool.false_ne_true }

theorem trySend_none_iff (c : Chan α cap) (x : α) : c.trySend x = none ↔ c.waiting = false ∧ c.buffer.length = cap := by
  have hb := c.bound
  unfold trySend
  split
  · rename_i hw
    simp [hw]
  · rename_i hw
    split
    · constructor
      · intro h
        cases h
      · intro h
        omega
    · refine iff_of_true rfl ⟨Bool.eq_false_iff.2 hw, ?_⟩
      omega

/-- The entry comes last, behind those that waited; only a receiver that waits gets it at once. -/
theorem trySend_some {c c' : Chan α cap} {x : α} {got : Option α} (h : c.trySend x = some (c', got)) :
    got.toList ++ c'.buffer = c.buffer ++ [x] ∧ c'.waiting = false ∧ (c.waiting = false → got = none) := by
  unfold trySend at h
  split at h
  · rename_i hw
    cases h
    refine ⟨?_, rfl, fun hn => ?_⟩
    · show [x] ++ c.buffer = c.buffer ++ [x]
      rw [c.parked hw]
      rfl
    · rw [hw] at hn
      cases hn
  · rename_i hw
    split at h
    · cases h
      exact ⟨rfl, Bool.eq_false_iff.2 hw, fun _ => rfl⟩
    · cases h

theorem tryReceive_some {c c' : Chan α cap} {x : α} (h : c.tryReceive = some (c', x)) :
    c.buffer = x :: c'.buffer ∧ c'.waiting = c.waiting := by
  unfold tryReceive at h
  split at h
  · cases h
  · rename_i hc
    cases h
    exact ⟨(List.cons_head_tail hc).symm, rfl⟩

theorem receive_entries (c : Chan α cap) : c.receive.2.toList ++ c.receive.1.buffer = c.buffer := by
  unfold receive
  split
  · rename_i hr
    exact (tryReceive_some hr).1.symm
  · rfl

theorem receive_cons {c : Chan α cap} {x : α} {rest : List α} (h : c.buffer = x :: rest) :
    c.receive.1.buffer = rest ∧ c.receive.1.waiting = c.waiting := by
  unfold receive
  split
  · rename_i hr
    obtain ⟨hb, hw⟩ := tryReceive_some hr
    rw [h] at hb
    exact ⟨(List.cons.inj hb).2.symm, hw⟩
  · rename_i hr
    rw [(tryReceive_none_iff c).1 hr] at h
    cases h

end Chan

end ElectricEel.Lib
