/-
  ElectricEel.Lib.Runs — runs of a machine whose steps are total functions.

  A machine is a set of initial states and a total step on events. `ok s e` says which
  events are allowed in which state (an environment assumption, or a claim's condition);
  `Reach` is reachability by allowed events.

  Proved: the invariant rule (`Reach.inv`), the same rule on top of an invariant already
  known (`Reach.inv_of`), that a weaker guard reaches more (`Reach.mono`), that what
  holds of every allowed single step holds along every list of events (`Reach.run`) and
  along every path (`Reach.path`), that two guards which agree under an invariant allow the
  same runs (`Allowed.congr`), and that a history variable changes nothing
  (`Reach.erase`).
-/
import Mathlib.Data.List.Basic
import Mathlib.Logic.Relation

namespace ElectricEel.Lib

structure Machine (σ ε : Type) where
  init : σ → Prop
  step : σ → ε → σ

namespace Machine

variable {σ ε : Type} (M : Machine σ ε) (ok : σ → ε → Prop)

/-- States reached from an initial one by events allowed where they happen. -/
inductive Reach : σ → Prop
  | init {s : σ} : M.init s → Reach s
  | step {s : σ} (e : ε) : Reach s → ok s e → Reach (M.step s e)

def run (s : σ) (es : List ε) : σ := es.foldl M.step s

/-- Every event of the list is allowed in the state it happens in. -/
def Allowed : σ → List ε → Prop
  | _, [] => True
  | s, e :: es => ok s e ∧ Allowed (M.step s e) es

@[simp] theorem run_nil (s : σ) : M.run s [] = s := rfl

@[simp] theorem run_cons (s : σ) (e : ε) (es : List ε) : M.run s (e :: es) = M.run (M.step s e) es := rfl

/-- Any number of allowed steps. -/
abbrev Path : σ → σ → Prop := Relation.ReflTransGen fun s t => ∃ e, ok s e ∧ t = M.step s e

variable {M ok}

theorem Path.one {s : σ} {e : ε} (h : ok s e) : M.Path ok s (M.step s e) := .single ⟨e, h, rfl⟩

theorem Path.inv {I : σ → Prop} (h : ∀ s e, ok s e → I s → I (M.step s e)) {s t : σ} (p : M.Path ok s t) (hs : I s) : I t := by
  induction p with
  | refl => exact hs
  | tail _ hst ih =>
    obtain ⟨e, he, rfl⟩ := hst
    exact h _ e he ih

theorem Path.weaken {ok' : σ → ε → Prop} (hw : ∀ s e, ok s e → ok' s e) {s t : σ} (p : M.Path ok s t) : M.Path ok' s t := by
  induction p with
  | refl => exact .refl
  | tail _ hst ih =>
    obtain ⟨e, he, rfl⟩ := hst
    exact ih.tail ⟨e, hw _ e he, rfl⟩

theorem Allowed.of_forall (h : ∀ s e, ok s e) (s : σ) (es : List ε) : M.Allowed ok s es := by
  induction es generalizing s with
  | nil => trivial
  | cons e es ih => exact ⟨h s e, ih _⟩

theorem Allowed.of_mem {s : σ} {es : List ε} (h : ∀ e ∈ es, ∀ s, ok s e) : M.Allowed ok s es := by
  induction es generalizing s with
  | nil => trivial
  | cons e es ih => exact ⟨h e List.mem_cons_self s, ih fun x hx => h x (List.mem_cons_of_mem e hx)⟩

theorem Allowed.last {s : σ} {es : List ε} {e : ε} (h : M.Allowed ok s (es ++ [e])) : ok (M.run s es) e := by
  induction es generalizing s with
  | nil => exact h.1
  | cons _ _ ih => exact ih h.2

/-- Two guards allow the same runs where they agree under an invariant that the steps they allow keep. -/
theorem Allowed.congr {ok' : σ → ε → Prop} {I : σ → Prop} (heq : ∀ s e, I s → (ok s e ↔ ok' s e))
    (hI : ∀ s e, I s → ok' s e → I (M.step s e)) {s : σ} (hs : I s) (es : List ε) : M.Allowed ok s es ↔ M.Allowed ok' s es := by
  induction es generalizing s with
  | nil => exact Iff.rfl
  | cons e es ih =>
    constructor
    · intro h
      have he := (heq s e hs).1 h.1
      exact ⟨he, (ih (hI s e hs he)).1 h.2⟩
    · intro h
      exact ⟨(heq s e hs).2 h.1, (ih (hI s e hs h.1)).2 h.2⟩

instance decidableAllowed [∀ s e, Decidable (ok s e)] : ∀ s es, Decidable (M.Allowed ok s es)
  | _, [] => .isTrue trivial
  | s, e :: es => @instDecidableAnd _ _ _ (decidableAllowed (M.step s e) es)

namespace Reach

theorem inv {I : σ → Prop} (h0 : ∀ s, M.init s → I s) (hs : ∀ s e, I s → ok s e → I (M.step s e)) {s : σ}
    (h : Reach M ok s) : I s := by
  induction h with
  | init hi => exact h0 _ hi
  | step e _ hok ih => exact hs _ e ih hok

/-- The invariant rule when `J` is known of every reachable state. -/
theorem inv_of {I J : σ → Prop} (hJ : ∀ s, Reach M ok s → J s) (h0 : ∀ s, M.init s → I s)
    (hs : ∀ s e, J s → I s → ok s e → I (M.step s e)) {s : σ} (h : Reach M ok s) : I s := by
  induction h with
  | init hi => exact h0 _ hi
  | step e hr hok ih => exact hs _ e (hJ _ hr) ih hok

theorem mono {ok' : σ → ε → Prop} (hw : ∀ s e, ok s e → ok' s e) {s : σ} (h : Reach M ok s) : Reach M ok' s := by
  induction h with
  | init hi => exact .init hi
  | step e _ hok ih => exact .step e ih (hw _ _ hok)

theorem run {s : σ} (h : Reach M ok s) (es : List ε) (ha : M.Allowed ok s es) : Reach M ok (M.run s es) := by
  induction es generalizing s with
  | nil => exact h
  | cons e es ih => exact ih (.step e h ha.1) ha.2

theorem path {s t : σ} (h : Reach M ok s) (p : M.Path ok s t) : Reach M ok t :=
  p.inv (fun _ e he hs => .step e hs he) h

end Reach

/-! ## History variables -/

/-- The machine with a variable `γ` that only records. -/
def withHistory {γ : Type} (M : Machine σ ε) (init : σ → γ → Prop) (record : γ → σ → ε → γ) : Machine (σ × γ) ε :=
  { init := fun p => M.init p.1 ∧ init p.1 p.2, step := fun p e => (M.step p.1 e, record p.2 p.1 e) }

theorem Reach.erase {γ : Type} {init : σ → γ → Prop} {record : γ → σ → ε → γ} {ok' : σ × γ → ε → Prop}
    (hok : ∀ p e, ok' p e → ok p.1 e) {p : σ × γ} (h : Reach (M.withHistory init record) ok' p) : Reach M ok p.1 := by
  induction h with
  | init hi => exact .init hi.1
  | step e _ he ih => exact .step e ih (hok _ e he)

end Machine

end ElectricEel.Lib
