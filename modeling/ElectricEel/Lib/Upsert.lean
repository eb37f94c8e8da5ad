/-
  ElectricEel.Lib.Upsert — putting items into a list by their keys.

  An item takes the place of the first value of its key, or goes to the end where there is
  none. Values may share a key; the items put in together have different ones.

  Proved: what a list of items makes of a list of values, said without the order in which
  they are put in (`upsertAll_eq`), and that putting them in twice is putting them in once
  (`upsertAll_idem`).
-/
import Mathlib.Data.List.Basic
import Mathlib.Data.List.Induction
import Mathlib.Data.List.Nodup

namespace ElectricEel.Lib.Upsert

variable {α κ : Type} [DecidableEq κ] (key : α → κ)

/-- None: no value has the item's key. -/
def replaceFirst (x : α) : List α → Option (List α)
  | [] => none
  | v :: l => if key v = key x then some (x :: l) else (replaceFirst x l).map (v :: ·)

def upsert (l : List α) (x : α) : List α := (replaceFirst key x l).getD (l ++ [x])

def upsertAll (l items : List α) : List α := items.foldl (upsert key) l

/-- Each value that is the first of its key gives way to the item of that key, if there is
    one; `seen` are the keys of the values before. -/
def replaced (items : List α) : List κ → List α → List α
  | _, [] => []
  | seen, v :: l => (if key v ∈ seen then v else (items.find? (key · = key v)).getD v) :: replaced items (key v :: seen) l

/-- The items whose keys no value has. -/
def appended (items l : List α) : List α := items.filter fun x => key x ∉ l.map key

/-! ## One item -/

variable {key}

theorem replaceFirst_none {x : α} {l : List α} (h : key x ∉ l.map key) : replaceFirst key x l = none := by
  induction l with
  | nil => rfl
  | cons v l ih =>
    rw [List.map_cons, List.mem_cons, not_or] at h
    rw [replaceFirst, if_neg (Ne.symm h.1), ih h.2]
    rfl

theorem upsert_append {x : α} {l : List α} (h : key x ∉ l.map key) : upsert key l x = l ++ [x] := by
  rw [upsert, replaceFirst_none h]
  rfl

/-- The item is the first of its key. -/
def Stands (key : α → κ) (l : List α) (x : α) : Prop := l.find? (key · = key x) = some x

theorem Stands.replaceFirst_eq {x : α} {l : List α} (h : Stands key l x) : replaceFirst key x l = some l := by
  induction l with
  | nil => cases h
  | cons v l ih =>
    unfold Stands at h
    rw [List.find?_cons] at h
    by_cases hk : key v = key x
    · rw [decide_eq_true hk] at h
      cases h
      rw [replaceFirst, if_pos rfl]
    · rw [decide_eq_false hk] at h
      rw [replaceFirst, if_neg hk, ih h]
      rfl

theorem Stands.upsert_eq {x : α} {l : List α} (h : Stands key l x) : upsert key l x = l := by
  rw [upsert, h.replaceFirst_eq]
  rfl

theorem stands_cons_of_ne {v x : α} {l : List α} (h : key v ≠ key x) : Stands key (v :: l) x ↔ Stands key l x := by
  rw [Stands, List.find?_cons, decide_eq_false h]
  rfl

theorem stands_cons_self (x : α) (l : List α) : Stands key (x :: l) x := by
  rw [Stands, List.find?_cons, decide_eq_true rfl]

theorem upsert_cons_of_eq {v x : α} (h : key v = key x) (l : List α) : upsert key (v :: l) x = x :: l := by
  rw [upsert, replaceFirst, if_pos h]
  rfl

theorem upsert_cons_of_ne {v x : α} (h : key v ≠ key x) (l : List α) : upsert key (v :: l) x = v :: upsert key l x := by
  rw [upsert, replaceFirst, if_neg h, upsert]
  cases replaceFirst key x l <;> rfl

theorem stands_upsert (l : List α) (x : α) : Stands key (upsert key l x) x := by
  induction l with
  | nil => exact stands_cons_self x []
  | cons v l ih =>
    by_cases hk : key v = key x
    · rw [upsert_cons_of_eq hk]
      exact stands_cons_self x l
    · rw [upsert_cons_of_ne hk, stands_cons_of_ne hk]
      exact ih

theorem Stands.upsert {l : List α} {x y : α} (h : Stands key l x) (hne : key y ≠ key x) : Stands key (upsert key l y) x := by
  induction l with
  | nil => cases h
  | cons v l ih =>
    by_cases hy : key v = key y
    · have hx : key v ≠ key x := fun he => hne (hy.symm.trans he)
      rw [upsert_cons_of_eq hy, stands_cons_of_ne hne]
      exact (stands_cons_of_ne hx).1 h
    · rw [upsert_cons_of_ne hy]
      by_cases hx : key v = key x
      · unfold Stands at h ⊢
        rw [List.find?_cons, decide_eq_true hx] at h ⊢
        exact h
      · rw [stands_cons_of_ne hx] at h ⊢
        exact ih h

/-! ## All of them -/

theorem Stands.upsertAll {l items : List α} {x : α} (h : Stands key l x) (hne : ∀ y ∈ items, key y ≠ key x) :
    Stands key (upsertAll key l items) x := by
  induction items generalizing l with
  | nil => exact h
  | cons y items ih =>
    exact ih (h.upsert (hne y List.mem_cons_self)) fun z hz => hne z (List.mem_cons_of_mem _ hz)

theorem stands_upsertAll {l items : List α} (hn : (items.map key).Nodup) : ∀ x ∈ items, Stands key (upsertAll key l items) x := by
  induction items generalizing l with
  | nil => exact fun x hx => absurd hx List.not_mem_nil
  | cons y items ih =>
    rw [List.map_cons, List.nodup_cons] at hn
    intro x hx
    rcases List.mem_cons.1 hx with rfl | hx
    · refine (stands_upsert l x).upsertAll fun z hz he => hn.1 ?_
      rw [← he]
      exact List.mem_map_of_mem hz
    · exact ih hn.2 x hx

theorem upsertAll_of_stands {l items : List α} (h : ∀ x ∈ items, Stands key l x) : upsertAll key l items = l := by
  induction items with
  | nil => rfl
  | cons x items ih =>
    rw [upsertAll, List.foldl_cons, (h x List.mem_cons_self).upsert_eq]
    exact ih fun y hy => h y (List.mem_cons_of_mem _ hy)

theorem upsertAll_idem (l : List α) {items : List α} (hn : (items.map key).Nodup) :
    upsertAll key (upsertAll key l items) items = upsertAll key l items :=
  upsertAll_of_stands (stands_upsertAll hn)

/-! ## Where everything goes -/

theorem key_replaced (items : List α) (seen : List κ) (l : List α) : (replaced key items seen l).map key = l.map key := by
  induction l generalizing seen with
  | nil => rfl
  | cons v l ih =>
    rw [replaced, List.map_cons, List.map_cons, ih]
    congr 1
    split
    · rfl
    · cases hf : items.find? (key · = key v) with
      | none => rfl
      | some x => simpa using List.find?_some hf

/-- A further item that finds its place taken, or none, replaces nothing. -/
theorem replaced_snoc {items : List α} {seen : List κ} {l : List α} {x : α} (h : key x ∈ seen ∨ key x ∉ l.map key) :
    replaced key (items ++ [x]) seen l = replaced key items seen l := by
  induction l generalizing seen with
  | nil => rfl
  | cons v l ih =>
    rw [replaced, replaced]
    congr 1
    · split
      · rfl
      · next hv =>
        have hne : ¬key x = key v := by
          intro he
          rcases h with h | h
          · exact hv (he ▸ h)
          · exact h (by rw [he]; exact List.mem_cons_self)
        rw [List.find?_append, List.find?_singleton, if_neg (by simpa using hne), Option.or_none]
    · exact ih (h.imp (List.mem_cons_of_mem _) fun hm hl => hm (List.mem_cons_of_mem _ hl))

/-- A further item takes the place of the first value of its key. -/
theorem upsert_replaced {items rest : List α} {seen : List κ} {l : List α} {x : α} (hl : key x ∈ l.map key) (hs : key x ∉ seen)
    (hi : key x ∉ items.map key) :
    upsert key (replaced key items seen l ++ rest) x = replaced key (items ++ [x]) seen l ++ rest := by
  induction l generalizing seen with
  | nil => cases hl
  | cons v l ih =>
    have hkey := @key_replaced α κ _ key items seen (v :: l)
    rw [replaced, List.map_cons, List.map_cons] at hkey
    have hhead := (List.cons.inj hkey).1
    rw [replaced, replaced, List.cons_append, List.cons_append]
    by_cases hk : key v = key x
    · rw [upsert_cons_of_eq (hhead.trans hk), replaced_snoc (.inl (hk ▸ List.mem_cons_self))]
      have hv : key v ∉ seen := hk ▸ hs
      have hnone : items.find? (key · = key v) = none := by
        rw [List.find?_eq_none]
        intro y hy he
        refine hi ?_
        rw [← hk, ← of_decide_eq_true he]
        exact List.mem_map_of_mem hy
      rw [if_neg hv, List.find?_append, hnone, List.find?_singleton, if_pos (by simpa using hk.symm)]
      rfl
    · rw [upsert_cons_of_ne (fun he => hk (hhead.symm.trans he))]
      rw [List.map_cons, List.mem_cons] at hl
      rw [ih (hl.resolve_left (Ne.symm hk)) fun hm => (List.mem_cons.1 hm).elim (Ne.symm hk) hs]
      congr 1
      split
      · rfl
      · rw [List.find?_append, List.find?_singleton, if_neg (by simpa using Ne.symm hk), Option.or_none]

theorem upsertAll_eq (l : List α) {items : List α} (hn : (items.map key).Nodup) :
    upsertAll key l items = replaced key items [] l ++ appended key items l := by
  induction items using List.reverseRecOn with
  | nil =>
    have hsame : ∀ seen, replaced key [] seen l = l := by
      intro seen
      induction l generalizing seen with
      | nil => rfl
      | cons v l ih =>
        rw [replaced, ih, List.find?_nil, Option.getD_none, ite_self]
    rw [hsame]
    exact (List.append_nil l).symm
  | append_singleton items x ih =>
    rw [List.map_append, List.nodup_append] at hn
    have hx : key x ∉ items.map key := fun hm => hn.2.2 _ hm _ List.mem_cons_self rfl
    rw [upsertAll, List.foldl_append, List.foldl_cons, List.foldl_nil]
    have hih : items.foldl (upsert key) l = replaced key items [] l ++ appended key items l := ih hn.1
    rw [hih]
    by_cases hl : key x ∈ l.map key
    · rw [upsert_replaced hl List.not_mem_nil hx]
      congr 1
      rw [appended, appended, List.filter_append, List.filter_cons_of_neg (by simpa using hl), List.filter_nil, List.append_nil]
    · rw [upsert_append, replaced_snoc (.inr hl), List.append_assoc]
      · congr 1
        rw [appended, appended, List.filter_append, List.filter_cons_of_pos (by simpa using hl), List.filter_nil]
      · rw [List.map_append, key_replaced, List.mem_append]
        rintro (hm | hm)
        · exact hl hm
        · obtain ⟨y, hy, he⟩ := List.mem_map.1 hm
          exact hx (he ▸ List.mem_map_of_mem (List.mem_of_mem_filter hy))

end ElectricEel.Lib.Upsert
