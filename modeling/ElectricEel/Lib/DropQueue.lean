/-
  ElectricEel.Lib.DropQueue — a bounded queue that drops its oldest entry when full.

  The queue carries a ledger of what happened to everything ever pushed (ghost lists,
  oldest first): `pushed`, and of these `popped`, `dropped` (pushed out by a newer entry,
  each with the entries that waited behind it) and `cleared`; what is left is `items`.
  The fields say that the bound holds, that what waits are the newest pushes in push
  order, that the popped entries followed by the waiting ones are in push order, that an
  entry is dropped only as the head of a full queue, and that the ledger balances;
  `push`, `pop` and `clear` are the only ways to build one.

  Proved: a push onto a queue with room drops nothing and one onto a full queue drops the
  head (`push_of_lt`, `push_full`); what `pop` returns is the head (`pop_cons`); how each
  operation moves the ledger (the simp lemmas) and what it does to membership
  (`mem_push`, `mem_pop_of_mem`); every entry ever pushed is popped, lost or waiting,
  counted (`ledger_length`).
-/
import Mathlib.Data.List.Basic

namespace ElectricEel.Lib

structure DropQueue (α : Type) (cap : Nat) where
  items : List α
  pushed : List α
  popped : List α
  dropped : List (α × List α)
  cleared : List α
  bound : items.length ≤ cap
  recent : items <:+ pushed
  order : (popped ++ items).Sublist pushed
  full : ∀ d ∈ dropped, (d.1 :: d.2).length = cap
  ledger : (popped ++ (dropped.map Prod.fst ++ (cleared ++ items))).Perm pushed

namespace DropQueue

variable {α : Type} {cap : Nat}

def empty : DropQueue α cap :=
  { items := [], pushed := [], popped := [], dropped := [], cleared := []
    bound := Nat.zero_le _, recent := List.suffix_rfl, order := .slnil, full := by simp, ledger := .nil }

/-! ## Pushing -/

theorem suffix_push {it pu : List α} (x : α) (h : it <:+ pu) : it ++ [x] <:+ pu ++ [x] := by
  obtain ⟨t, rfl⟩ := h
  exact ⟨t, by simp only [List.append_assoc]⟩

theorem room_ledger {po dr cl it pu : List α} (x : α) (h : (po ++ (dr ++ (cl ++ it))).Perm pu) :
    (po ++ (dr ++ (cl ++ (it ++ [x])))).Perm (pu ++ [x]) := by
  simpa only [List.append_assoc] using h.append_right [x]

theorem full_ledger {po dr cl it pu : List α} (y x : α) (h : (po ++ (dr ++ (cl ++ (y :: it)))).Perm pu) :
    (po ++ ((dr ++ [y]) ++ (cl ++ (it ++ [x])))).Perm (pu ++ [x]) := by
  have hy : (cl ++ (y :: it)).Perm ([y] ++ (cl ++ it)) := List.perm_middle
  have hd : (po ++ (dr ++ (cl ++ (y :: it)))).Perm (po ++ (dr ++ ([y] ++ (cl ++ it)))) :=
    (hy.append_left dr).append_left po
  simpa only [List.append_assoc] using (hd.symm.trans h).append_right [x]

theorem full_order {po it pu : List α} (y x : α) (h : (po ++ (y :: it)).Sublist pu) :
    (po ++ (it ++ [x])).Sublist (pu ++ [x]) := by
  have ht : (po ++ it).Sublist pu := ((List.sublist_cons_self y it).append_left po).trans h
  simpa only [List.append_assoc] using ht.append_right [x]

/-- At capacity the oldest entry makes room for the new one. -/
def push (q : DropQueue α (cap + 1)) (x : α) : DropQueue α (cap + 1) :=
  if hlt : q.items.length < cap + 1 then
    { q with
      items := q.items ++ [x], pushed := q.pushed ++ [x]
      bound := by simp only [List.length_append, List.length_singleton]; omega
      recent := suffix_push x q.recent
      order := by simpa only [List.append_assoc] using q.order.append_right [x]
      ledger := room_ledger x q.ledger }
  else
    match hi : q.items with
    | [] => q
    | y :: rest =>
      { q with
        items := rest ++ [x], pushed := q.pushed ++ [x], dropped := q.dropped ++ [(y, rest)]
        bound := by
          have hb := q.bound
          simp only [hi, List.length_cons] at hb
          simp only [List.length_append, List.length_singleton]; omega
        recent := suffix_push x ((List.suffix_cons y rest).trans (hi ▸ q.recent))
        order := full_order y x (hi ▸ q.order)
        full := by
          intro d hd
          rcases List.mem_append.1 hd with hd | hd
          · exact q.full d hd
          · -- the queue was at capacity
            have hb := q.bound
            simp only [hi, List.length_cons] at hb hlt
            rw [List.mem_singleton.1 hd]
            simp only [List.length_cons]; omega
        ledger := by
          simpa only [List.map_append, List.map_cons, List.map_nil] using full_ledger y x (hi ▸ q.ledger) }

theorem push_of_lt {q : DropQueue α (cap + 1)} (h : q.items.length < cap + 1) (x : α) :
    (q.push x).items = q.items ++ [x] ∧ (q.push x).dropped = q.dropped := by
  simp only [push, h, dite_true, and_self]

/-- Nothing is dropped but the head of a full queue. -/
theorem push_full {q : DropQueue α (cap + 1)} (h : q.items.length = cap + 1) (x : α) :
    ∃ y rest, q.items = y :: rest ∧ (q.push x).items = rest ++ [x] ∧ (q.push x).dropped = q.dropped ++ [(y, rest)] := by
  have hn : ¬ q.items.length < cap + 1 := by omega
  unfold push
  rw [dif_neg hn]
  split
  · rename_i hi
    simp [hi] at h
  · rename_i y rest hi
    exact ⟨y, rest, hi, rfl, rfl⟩

theorem push_cases (q : DropQueue α (cap + 1)) (x : α) :
    ((q.push x).items = q.items ++ [x] ∧ (q.push x).dropped = q.dropped) ∨
    ∃ y rest, q.items.length = cap + 1 ∧ q.items = y :: rest ∧ (q.push x).items = rest ++ [x] ∧
      (q.push x).dropped = q.dropped ++ [(y, rest)] := by
  rcases Nat.lt_or_ge q.items.length (cap + 1) with h | h
  · exact .inl (push_of_lt h x)
  · have he : q.items.length = cap + 1 := Nat.le_antisymm q.bound h
    obtain ⟨y, rest, hr⟩ := push_full he x
    exact .inr ⟨y, rest, he, hr⟩

@[simp] theorem push_pushed (q : DropQueue α (cap + 1)) (x : α) : (q.push x).pushed = q.pushed ++ [x] := by
  unfold push
  split
  · rfl
  · split
    · rename_i hlt hi
      simp [hi] at hlt
    · rfl

@[simp] theorem push_popped (q : DropQueue α (cap + 1)) (x : α) : (q.push x).popped = q.popped := by
  unfold push
  split
  · rfl
  · split <;> rfl

@[simp] theorem push_cleared (q : DropQueue α (cap + 1)) (x : α) : (q.push x).cleared = q.cleared := by
  unfold push
  split
  · rfl
  · split <;> rfl

theorem mem_push {q : DropQueue α (cap + 1)} {x y : α} (h : y ∈ (q.push x).items) : y ∈ q.items ∨ y = x := by
  rcases push_cases q x with ⟨hi, _⟩ | ⟨z, rest, _, hq, hi, _⟩
  · simpa [hi] using h
  · rw [hi] at h
    rw [hq]
    rcases List.mem_append.1 h with h | h
    · exact .inl (.tail _ h)
    · exact .inr (List.mem_singleton.1 h)

theorem mem_push_self (q : DropQueue α (cap + 1)) (x : α) : x ∈ (q.push x).items := by
  rcases push_cases q x with ⟨hi, _⟩ | ⟨y, rest, _, _, hi, _⟩ <;> simp [hi]

theorem dropped_prefix_push (q : DropQueue α (cap + 1)) (x : α) : q.dropped <+: (q.push x).dropped := by
  rcases push_cases q x with ⟨_, hd⟩ | ⟨y, _, _, _, _, hd⟩
  · exact hd ▸ List.prefix_rfl
  · exact hd ▸ List.prefix_append _ _

/-! ## Popping and clearing -/

def pop (q : DropQueue α cap) : DropQueue α cap × Option α :=
  match hi : q.items with
  | [] => (q, none)
  | x :: rest =>
    ({ q with
      items := rest, popped := q.popped ++ [x]
      bound := by
        have hb := q.bound
        simp only [hi, List.length_cons] at hb
        omega
      recent := (List.suffix_cons x rest).trans (hi ▸ q.recent)
      order := by
        have ho := q.order
        rw [hi] at ho
        simpa only [List.append_assoc, List.singleton_append] using ho
      ledger := by
        have hl := q.ledger
        rw [hi] at hl
        have hx : (q.dropped.map Prod.fst ++ (q.cleared ++ (x :: rest))).Perm
            (x :: (q.dropped.map Prod.fst ++ (q.cleared ++ rest))) := by
          simpa only [List.append_assoc] using @List.perm_middle _ x (q.dropped.map Prod.fst ++ q.cleared) rest
        simpa only [List.append_assoc, List.singleton_append] using (hx.append_left q.popped).symm.trans hl }, some x)

theorem pop_nil {q : DropQueue α cap} (h : q.items = []) : q.pop = (q, none) := by
  unfold pop
  split
  · rfl
  · rename_i hi
    simp [h] at hi

theorem pop_cons {q : DropQueue α cap} {x : α} {rest : List α} (h : q.items = x :: rest) :
    q.pop.2 = some x ∧ q.pop.1.items = rest ∧ q.pop.1.popped = q.popped ++ [x] := by
  unfold pop
  split
  · rename_i hi
    simp [h] at hi
  · rename_i y rest' hi
    rw [h] at hi
    obtain ⟨rfl, rfl⟩ := List.cons.inj hi
    exact ⟨rfl, rfl, rfl⟩

theorem pop_cases (q : DropQueue α cap) :
    (q.items = [] ∧ q.pop = (q, none)) ∨
    ∃ x rest, q.items = x :: rest ∧ q.pop.2 = some x ∧ q.pop.1.items = rest ∧ q.pop.1.popped = q.popped ++ [x] := by
  cases h : q.items with
  | nil => exact .inl ⟨rfl, pop_nil h⟩
  | cons x rest => exact .inr ⟨x, rest, rfl, pop_cons h⟩

@[simp] theorem pop_pushed (q : DropQueue α cap) : q.pop.1.pushed = q.pushed := by
  unfold pop
  split <;> rfl

@[simp] theorem pop_dropped (q : DropQueue α cap) : q.pop.1.dropped = q.dropped := by
  unfold pop
  split <;> rfl

@[simp] theorem pop_cleared (q : DropQueue α cap) : q.pop.1.cleared = q.cleared := by
  unfold pop
  split <;> rfl

theorem mem_pop {q : DropQueue α cap} {y : α} (h : y ∈ q.pop.1.items) : y ∈ q.items := by
  rcases pop_cases q with ⟨_, hp⟩ | ⟨x, rest, hq, _, hi, _⟩
  · simpa [hp] using h
  · rw [hi] at h
    exact hq ▸ .tail _ h

theorem mem_of_pop {q : DropQueue α cap} {y : α} (h : q.pop.2 = some y) : y ∈ q.items := by
  rcases pop_cases q with ⟨_, hp⟩ | ⟨x, rest, hq, hx, _⟩
  · simp [hp] at h
  · rw [hx] at h
    simp [hq, Option.some.inj h]

/-- An entry waiting before a `pop` still waits after it, or is what was returned. -/
theorem mem_pop_of_mem {q : DropQueue α cap} {y : α} (h : y ∈ q.items) : y ∈ q.pop.1.items ∨ q.pop.2 = some y := by
  rcases pop_cases q with ⟨hn, _⟩ | ⟨x, rest, hq, hx, hi, _⟩
  · simp [hn] at h
  · rw [hq] at h
    rcases List.mem_cons.1 h with rfl | h
    · exact .inr hx
    · exact .inl (hi ▸ h)

def clear (q : DropQueue α cap) : DropQueue α cap :=
  { q with
    items := [], cleared := q.cleared ++ q.items
    bound := Nat.zero_le _
    recent := List.nil_suffix
    order := by simpa using (List.sublist_append_left q.popped q.items).trans q.order
    ledger := by simpa only [List.append_assoc, List.append_nil] using q.ledger }

@[simp] theorem clear_items (q : DropQueue α cap) : q.clear.items = [] := rfl
@[simp] theorem clear_pushed (q : DropQueue α cap) : q.clear.pushed = q.pushed := rfl
@[simp] theorem clear_popped (q : DropQueue α cap) : q.clear.popped = q.popped := rfl
@[simp] theorem clear_dropped (q : DropQueue α cap) : q.clear.dropped = q.dropped := rfl
@[simp] theorem clear_cleared (q : DropQueue α cap) : q.clear.cleared = q.cleared ++ q.items := rfl

/-! ## Counting -/

/-- How many entries were lost, to newer ones or to a clear. -/
def lost (q : DropQueue α cap) : Nat := q.dropped.length + q.cleared.length

theorem ledger_length (q : DropQueue α cap) : q.popped.length + q.lost + q.items.length = q.pushed.length := by
  have h := q.ledger.length_eq
  simp only [List.length_append, List.length_map] at h
  unfold lost
  omega

theorem lost_push (q : DropQueue α (cap + 1)) (x : α) : q.lost ≤ (q.push x).lost := by
  have h := (dropped_prefix_push q x).length_le
  unfold lost
  rw [push_cleared]
  omega

@[simp] theorem lost_pop (q : DropQueue α cap) : q.pop.1.lost = q.lost := by
  simp [lost]

theorem lost_clear (q : DropQueue α cap) : q.lost ≤ q.clear.lost := by
  simp only [lost, clear_dropped, clear_cleared, List.length_append]
  omega

/-! ## What is waiting or gone was pushed -/

theorem mem_pushed_of_mem {q : DropQueue α cap} {y : α} (h : y ∈ q.items) : y ∈ q.pushed :=
  q.order.subset (List.mem_append_right _ h)

theorem mem_pushed_of_cleared {q : DropQueue α cap} {y : α} (h : y ∈ q.cleared) : y ∈ q.pushed :=
  q.ledger.subset (by simp [h])

end DropQueue

end ElectricEel.Lib
