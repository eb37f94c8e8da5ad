/-
  ElectricEel.Lib.Attempts — a loop that repeats an attempt as long as its error is worth it.

  Between two attempts the loop waits; if its context ends meanwhile it returns the context's
  error instead of trying again. The attempts are given as the list of rounds the world has in
  store; those the loop makes are a prefix of it (`made`), and with the list used up it is
  still at work.

  An effect that rules another attempt out happens at most once (`once`), and not at all if
  the loop's result rules it out (`never`).
-/
import Mathlib.Data.List.Count

namespace ElectricEel.Lib

structure Attempts (ρ ε α : Type) where
  outcome : ρ → Except ε α
  /-- The error is worth another attempt. -/
  again : ε → Bool
  /-- The context ends in the wait after the round. -/
  cancelled : ρ → Bool
  /-- The context's error. -/
  ended : ε

namespace Attempts

variable {ρ ε α : Type} (T : Attempts ρ ε α)

def goesOn (r : ρ) : Bool :=
  match T.outcome r with
  | .ok _ => false
  | .error e => T.again e && !T.cancelled r

/-- What the loop returns if the round is its last. -/
def final (r : ρ) : Except ε α :=
  match T.outcome r with
  | .ok a => .ok a
  | .error e => .error (if T.again e then T.ended else e)

def run : List ρ → Option (Except ε α)
  | [] => none
  | r :: rs => if T.goesOn r then run rs else some (T.final r)

def made : List ρ → List ρ
  | [] => []
  | r :: rs => if T.goesOn r then r :: made rs else [r]

variable {T} {rs : List ρ} {p : ρ → Bool}

theorem final_ok {r : ρ} {a : α} (h : T.final r = .ok a) : T.outcome r = .ok a := by
  unfold final at h
  split at h
  · rename_i heq
    rw [heq]
    exact h
  · cases h

/-- The result is that of the last round made. -/
theorem run_last {res : Except ε α} (h : T.run rs = some res) : ∃ r ∈ T.made rs, T.goesOn r = false ∧ T.final r = res := by
  induction rs with
  | nil => cases h
  | cons r rs ih =>
    unfold run at h
    unfold made
    split at h
    · rename_i hg
      obtain ⟨x, hx, hlast⟩ := ih h
      rw [if_pos hg]
      exact ⟨x, List.mem_cons_of_mem r hx, hlast⟩
    · rename_i hg
      rw [if_neg hg]
      exact ⟨r, List.mem_singleton_self r, Bool.not_eq_true _ ▸ hg, Option.some.inj h⟩

theorem not_of_goesOn {r : ρ} (hg : T.goesOn r = true) (hp : p r = true → T.goesOn r = false) : ¬p r = true := by
  intro hr
  rw [hp hr] at hg
  cases hg

/-- What happens only in rounds that are the last happens at most once. -/
theorem once (hp : ∀ r ∈ rs, p r = true → T.goesOn r = false) : (T.made rs).countP p ≤ 1 := by
  induction rs with
  | nil => exact Nat.zero_le 1
  | cons r rs ih =>
    have hrest := ih fun x hx => hp x (List.mem_cons_of_mem r hx)
    unfold made
    split
    · rename_i hg
      have hr : ¬p r = true := not_of_goesOn hg (hp r (List.mem_cons_self ..))
      rw [List.countP_cons_of_neg hr]
      exact hrest
    · exact List.countP_le_length

/-- It does not happen if the last round's result rules it out. -/
theorem never {res : Except ε α} (h : T.run rs = some res) (hp : ∀ r ∈ rs, p r = true → T.goesOn r = false)
    (hres : ∀ r ∈ rs, T.final r = res → T.goesOn r = false → p r = false) : (T.made rs).countP p = 0 := by
  induction rs with
  | nil => rfl
  | cons r rs ih =>
    unfold run at h
    unfold made
    split at h
    · rename_i hg
      have hr : ¬p r = true := not_of_goesOn hg (hp r (List.mem_cons_self ..))
      rw [if_pos hg, List.countP_cons_of_neg hr]
      exact ih h (fun x hx => hp x (List.mem_cons_of_mem r hx)) fun x hx => hres x (List.mem_cons_of_mem r hx)
    · rename_i hg
      have hr : p r = false := hres r (List.mem_cons_self ..) (Option.some.inj h) (Bool.not_eq_true _ ▸ hg)
      rw [if_neg hg, List.countP_eq_zero]
      intro x hx
      rw [List.mem_singleton.1 hx, hr]
      exact Bool.false_ne_true

end Attempts

end ElectricEel.Lib
