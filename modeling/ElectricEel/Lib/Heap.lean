/-
  ElectricEel.Lib.Heap — programs that own heap cells, and rules to reason about them.

  A read or a free of a cell that is not allocated is a fault and ends the program (`none`), so a
  program that ends has freed nothing twice and read nothing freed. An address is not used again.

  `Heap.Holds h cells`: these cells are allocated, and no others. `Meets P m Q`: from a heap with `P`
  the program does not fault and ends with `Q`. A program that starts and ends with no cells leaks nothing.
-/
import Mathlib.Data.List.Basic

namespace ElectricEel.Lib

structure Heap (α : Type) where
  cells : Nat → Option α
  fresh : Nat

/-- Programs on the heap; none is a fault. -/
abbrev HeapM (α β : Type) := StateT (Heap α) Option β

namespace Heap

variable {α β γ : Type}

def empty : Heap α := ⟨fun _ => none, 0⟩

def set (h : Heap α) (p : Nat) (c : Option α) : Heap α := { h with cells := fun q => if q = p then c else h.cells q }

def alloc (a : α) : HeapM α Nat := fun h => some (h.fresh, { h.set h.fresh (some a) with fresh := h.fresh + 1 })

def read (p : Nat) : HeapM α α := fun h => (h.cells p).map (·, h)

def free (p : Nat) : HeapM α Unit := fun h => (h.cells p).map fun _ => ((), h.set p none)

/-- Exactly these cells. -/
structure Holds (h : Heap α) (cells : List (Nat × α)) : Prop where
  mem : ∀ p a, h.cells p = some a ↔ (p, a) ∈ cells
  nodup : (cells.map Prod.fst).Nodup
  fresh : ∀ c ∈ cells, c.1 < h.fresh

theorem empty_holds : (empty : Heap α).Holds [] :=
  ⟨fun _ _ => by simp [empty], List.nodup_nil, fun _ hc => absurd hc List.not_mem_nil⟩

/-- Which cells are held, not in which order. -/
theorem Holds.of_perm {h : Heap α} {cells cells' : List (Nat × α)} (hh : h.Holds cells) (hp : cells.Perm cells') : h.Holds cells' :=
  ⟨fun p a => (hh.mem p a).trans hp.mem_iff, (hp.map Prod.fst).nodup_iff.1 hh.nodup, fun c hc => hh.fresh c (hp.mem_iff.2 hc)⟩

def Meets (P : Heap α → Prop) (m : HeapM α β) (Q : β → Heap α → Prop) : Prop :=
  ∀ h, P h → ∃ b h', m h = some (b, h') ∧ Q b h'

/-! ## Rules -/

theorem Meets.pure {P : Heap α → Prop} {Q : β → Heap α → Prop} {b : β} (h : ∀ s, P s → Q b s) : Meets P (pure b) Q :=
  fun s hs => ⟨b, s, rfl, h s hs⟩

theorem Meets.bind {P : Heap α → Prop} {m : HeapM α β} {f : β → HeapM α γ} {Q : β → Heap α → Prop} {R : γ → Heap α → Prop}
    (hm : Meets P m Q) (hf : ∀ b, Meets (Q b) (f b) R) : Meets P (m >>= f) R := by
  intro h hp
  obtain ⟨b, h', hrun, hq⟩ := hm h hp
  obtain ⟨c, h'', hrun', hr⟩ := hf b h' hq
  exact ⟨c, h'', by rw [show (m >>= f) h = (m h).bind fun p => f p.1 p.2 from rfl, hrun]; exact hrun', hr⟩

theorem Meets.weaken {P P' : Heap α → Prop} {m : HeapM α β} {Q Q' : β → Heap α → Prop} (h : Meets P m Q) (hp : ∀ s, P' s → P s)
    (hq : ∀ b s, Q b s → Q' b s) : Meets P' m Q' := by
  intro s hs
  obtain ⟨b, s', hrun, hb⟩ := h s (hp s hs)
  exact ⟨b, s', hrun, hq b s' hb⟩

/-- A fact about the result of what was done. -/
theorem Meets.fact {P : Heap α → Prop} {m : HeapM α β} {Q : β → Heap α → Prop} {φ : Prop} (h : φ → Meets P m Q) :
    Meets (fun s => P s ∧ φ) m Q := fun s hs => h hs.2 s hs.1

theorem alloc_meets (cells : List (Nat × α)) (a : α) : Meets (·.Holds cells) (alloc a) fun p h => h.Holds ((p, a) :: cells) := by
  intro h hh
  have hnew : ∀ b, (h.fresh, b) ∉ cells := fun b hb => Nat.lt_irrefl _ (hh.fresh _ hb)
  refine ⟨h.fresh, _, rfl, fun p b => ?_, ?_, fun c hc => ?_⟩
  · by_cases hp : p = h.fresh
    · subst hp
      simp [set, hnew b, eq_comm]
    · simp [set, hp, hh.mem]
  · rw [List.map_cons, List.nodup_cons]
    refine ⟨fun hmem => ?_, hh.nodup⟩
    obtain ⟨⟨q, b⟩, hc, rfl⟩ := List.mem_map.1 hmem
    exact hnew b hc
  · rcases List.mem_cons.1 hc with rfl | hc
    · exact Nat.lt_succ_self _
    · exact Nat.lt_succ_of_lt (hh.fresh c hc)

theorem read_meets {cells : List (Nat × α)} {p : Nat} {a : α} (hm : (p, a) ∈ cells) :
    Meets (·.Holds cells) (read p) fun b h => h.Holds cells ∧ b = a := by
  intro h hh
  exact ⟨a, h, by rw [read, (hh.mem p a).2 hm]; rfl, hh, rfl⟩

theorem free_meets (l : List (Nat × α)) {r : List (Nat × α)} {p : Nat} {a : α} :
    Meets (·.Holds (l ++ (p, a) :: r)) (free p) fun _ h => h.Holds (l ++ r) := by
  intro h hh
  have hh := hh.of_perm List.perm_middle
  have hm : h.cells p = some a := (hh.mem p a).2 (List.mem_cons_self ..)
  have hnd := List.nodup_cons.1 hh.nodup
  refine ⟨(), h.set p none, by rw [free, hm]; rfl, fun q b => ?_, hnd.2, fun c hc => hh.fresh c (List.mem_cons_of_mem _ hc)⟩
  by_cases hq : q = p
  · subst hq
    have hnot : (q, b) ∉ l ++ r := fun hb => hnd.1 (List.mem_map.2 ⟨(q, b), hb, rfl⟩)
    simp only [set, if_true, reduceCtorEq, hnot]
  · have hmem := hh.mem q b
    rw [List.mem_cons, Prod.mk.injEq] at hmem
    simp only [set, hq, if_false, hmem, false_and, false_or]

/-- A cell is read and given back. -/
def take (p : Nat) : HeapM α α := do
  let a ← read p
  free p
  return a

theorem take_meets (l : List (Nat × α)) {r : List (Nat × α)} {p : Nat} {a : α} :
    Meets (·.Holds (l ++ (p, a) :: r)) (take p) fun b h => h.Holds (l ++ r) ∧ b = a := by
  refine (read_meets (List.mem_append_right l (List.mem_cons_self ..))).bind fun b => Meets.fact fun hb => ?_
  exact (free_meets l).bind fun _ => Meets.pure fun _ hs => ⟨hs, hb⟩

end Heap

end ElectricEel.Lib
