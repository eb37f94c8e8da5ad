/-
  ElectricEel.Lib.Text — searching and cutting lists of symbols.

  `cut pat s` is `find`: what stands before the first occurrence of `pat` and what stands
  after it. `joined sep pieces` writes every piece behind a separator of its own.

  Proved: a cut gives the text back and leaves a shorter one (`cut_eq`, `cut_shorter`);
  the pieces of `splitOn` after the first, each behind its separator, are the rest of the
  text (`splitOn_joined`), every piece stands in the text (`infix_of_mem_splitOnP`) and two
  of them in their order (`splitOnP_inOrder`); a search for a marked word steps over what
  holds no mark (`cut_skip`) and piece by piece over the rest (`cut_joined`); the last hit
  of a reader on a list is where no later element is one (`getLast?_iff`).
-/
import Mathlib.Algebra.Order.Ring.Nat
import Mathlib.Data.List.DropRight

namespace ElectricEel.Lib

variable {α : Type}

/-! ## The last hit -/

/-- The last element with a property, where there is one. -/
theorem exists_last (P : α → Prop) (xs : List α) :
    (∀ x ∈ xs, ¬ P x) ∨ ∃ before x after, xs = before ++ x :: after ∧ P x ∧ ∀ y ∈ after, ¬ P y := by
  induction xs with
  | nil => exact .inl nofun
  | cons x xs ih =>
    rcases ih with hno | ⟨before, y, after, rfl, hy, hafter⟩
    · by_cases hx : P x
      · exact .inr ⟨[], x, xs, rfl, hx, hno⟩
      · exact .inl (List.forall_mem_cons.2 ⟨hx, hno⟩)
    · exact .inr ⟨x :: before, y, after, rfl, hy, hafter⟩

section

variable {β : Type} {f : α → Option β} {before after : List α} {x : α}

theorem getLast?_read {b : β} (hx : f x = some b) (hafter : ∀ y ∈ after, f y = none) :
    ((before ++ x :: after).filterMap f).getLast? = some b := by
  rw [List.filterMap_append, List.filterMap_cons_some hx, List.filterMap_eq_nil_iff.2 hafter, List.getLast?_concat]

theorem getLast?_unread (hx : f x = none) (hafter : ∀ y ∈ after, f y = none) :
    ((before ++ x :: after).filterMap f).getLast? = (before.filterMap f).getLast? := by
  rw [List.filterMap_append, List.filterMap_cons_none hx, List.filterMap_eq_nil_iff.2 hafter, List.append_nil]

theorem getLast?_iff {xs : List α} {b : β} :
    (xs.filterMap f).getLast? = some b ↔ ∃ before x after, xs = before ++ x :: after ∧ f x = some b ∧ ∀ y ∈ after, f y = none := by
  constructor
  · intro h
    rcases exists_last (fun x => f x ≠ none) xs with hno | ⟨before, x, after, rfl, hx, hafter⟩
    · rw [List.filterMap_eq_nil_iff.2 fun y hy => not_not.1 (hno y hy)] at h
      cases h
    · have hunread : ∀ y ∈ after, f y = none := fun y hy => not_not.1 (hafter y hy)
      obtain ⟨c, hc⟩ := Option.ne_none_iff_exists'.1 hx
      rw [getLast?_read hc hunread] at h
      exact ⟨before, x, after, rfl, hc.trans h, hunread⟩
  · rintro ⟨before, x, after, rfl, hx, hafter⟩
    exact getLast?_read hx hafter

end

/-! ## Pieces -/

def joined (sep : α) (pieces : List (List α)) : List α := pieces.flatMap (sep :: ·)

@[simp] theorem joined_nil (sep : α) : joined sep [] = [] := rfl

@[simp] theorem joined_cons (sep : α) (t : List α) (ts : List (List α)) :
    joined sep (t :: ts) = sep :: (t ++ joined sep ts) := by simp [joined]

/-- The first piece ends the text, or at a separator. -/
theorem splitOnP_first_piece {p : α → Bool} {s t : List α} {ts : List (List α)} (h : s.splitOnP p = t :: ts) :
    (s = t ∧ ts = []) ∨ ∃ c r, s = t ++ c :: r ∧ ts = r.splitOnP p := by
  induction s generalizing t with
  | nil =>
    rw [List.splitOnP_nil] at h
    cases h
    exact .inl ⟨rfl, rfl⟩
  | cons c s ih =>
    rw [List.splitOnP_cons_eq_if_modifyHead] at h
    split at h
    · cases h
      exact .inr ⟨c, s, rfl, rfl⟩
    · cases hs : s.splitOnP p with
      | nil => exact absurd hs (List.splitOnP_ne_nil p s)
      | cons u us =>
        rw [hs, List.modifyHead_cons] at h
        cases h
        rcases ih hs with ⟨rfl, rfl⟩ | ⟨d, r, rfl, rfl⟩
        · exact .inl ⟨rfl, rfl⟩
        · exact .inr ⟨d, r, rfl, rfl⟩

theorem infix_of_mem_splitOnP {p : α → Bool} {s t : List α} (h : t ∈ s.splitOnP p) : t <:+: s := by
  generalize hpieces : s.splitOnP p = pieces at h
  induction pieces generalizing s with
  | nil => cases h
  | cons u us ih =>
    rcases splitOnP_first_piece hpieces with ⟨rfl, rfl⟩ | ⟨c, r, rfl, rfl⟩
    · obtain rfl := List.mem_singleton.1 h
      exact List.infix_rfl
    · rcases List.mem_cons.1 h with rfl | h
      · exact (List.prefix_append t (c :: r)).isInfix
      · exact (ih rfl h).trans ((List.suffix_cons c r).trans (List.suffix_append u (c :: r))).isInfix

theorem length_of_mem_splitOnP {p : α → Bool} {s t : List α} (h : t ∈ s.splitOnP p) : t.length ≤ s.length :=
  (infix_of_mem_splitOnP h).length_le

/-! ## Order -/

/-- `a` and, behind it, `b` are written in `s`. -/
def InOrder (s a b : List α) : Prop := ∃ before between after, s = before ++ a ++ between ++ b ++ after

theorem InOrder.mono {s t a b : List α} (h : InOrder s a b) (hs : s <:+: t) : InOrder t a b := by
  obtain ⟨before, between, after, rfl⟩ := h
  obtain ⟨u, v, rfl⟩ := hs
  exact ⟨u ++ before, between, after ++ v, by simp only [List.append_assoc]⟩

variable [DecidableEq α]

/-- The first piece and the others behind their separators. -/
theorem splitOn_joined (sep : α) (s : List α) :
    ∃ t ts, s.splitOn sep = t :: ts ∧ s = t ++ joined sep ts ∧ sep ∉ t ∧ ∀ u ∈ ts, sep ∉ u := by
  induction s with
  | nil => exact ⟨[], [], by simp, by simp, by simp, by simp⟩
  | cons c s ih =>
    obtain ⟨t, ts, hsplit, hs, ht, hts⟩ := ih
    rw [List.splitOn_cons_eq_if_modifyHead, hsplit]
    by_cases hc : c = sep
    · refine ⟨[], t :: ts, by simp [hc], ?_, by simp, ?_⟩
      · rw [hs, hc]
        simp
      · rintro u (_ | ⟨_, hu⟩)
        · exact ht
        · exact hts u hu
    · refine ⟨c :: t, ts, by simp [hc], by rw [hs]; simp, ?_, hts⟩
      rintro (_ | ⟨_, hm⟩)
      · exact hc rfl
      · exact ht hm

theorem length_of_mem_splitOn {sep : α} {s t : List α} (h : t ∈ s.splitOn sep) : t.length ≤ s.length := by
  rw [List.splitOn_eq_splitOnP] at h
  exact length_of_mem_splitOnP h

/-- One piece more than separators. -/
theorem length_splitOn (sep : α) (s : List α) : (s.splitOn sep).length = s.count sep + 1 := by
  induction s with
  | nil => simp
  | cons c s ih =>
    rw [List.splitOn_cons_eq_if_modifyHead, List.count_cons]
    split
    · rw [List.length_cons, ih]
    · rw [List.length_modifyHead, ih]

/-- What is dropped at the front holds no `a`. -/
theorem count_dropWhile {p : α → Bool} {a : α} (hp : p a = false) (s : List α) : (s.dropWhile p).count a = s.count a := by
  induction s with
  | nil => rfl
  | cons c s ih =>
    rw [List.dropWhile_cons]
    split
    · rename_i hc
      have hne : c ≠ a := by
        rintro rfl
        simp [hp] at hc
      rw [ih, List.count_cons_of_ne hne]
    · rfl

theorem count_rdropWhile {p : α → Bool} {a : α} (hp : p a = false) (s : List α) : (s.rdropWhile p).count a = s.count a := by
  rw [List.rdropWhile, List.count_reverse, count_dropWhile hp, List.count_reverse]

/-- What stands before the first separator, and the rest. -/
theorem takeWhile_joined {sep : α} {t : List α} (ht : sep ∉ t) (ts : List (List α)) :
    (t ++ joined sep ts).takeWhile (· ≠ sep) = t ∧ (t ++ joined sep ts).dropWhile (· ≠ sep) = joined sep ts := by
  induction t with
  | nil => cases ts <;> simp
  | cons c t ih =>
    obtain ⟨hc, ht⟩ := not_or.1 (mt List.mem_cons.2 ht)
    simp only [List.cons_append, List.takeWhile_cons, List.dropWhile_cons]
    rw [if_pos (by simpa using Ne.symm hc), if_pos (by simpa using Ne.symm hc), (ih ht).1, (ih ht).2]
    exact ⟨rfl, rfl⟩

/-! ## find -/

def cut (pat : List α) : List α → Option (List α × List α)
  | [] => if pat = [] then some ([], []) else none
  | c :: s =>
    if pat.isPrefixOf (c :: s) then some ([], (c :: s).drop pat.length)
    else (cut pat s).map fun r => (c :: r.1, r.2)

theorem cut_eq {pat s a b : List α} (h : cut pat s = some (a, b)) : s = a ++ (pat ++ b) := by
  induction s generalizing a with
  | nil =>
    rw [cut] at h
    split at h
    · rename_i hp
      cases h
      simp [hp]
    · cases h
  | cons c s ih =>
    rw [cut] at h
    split at h
    · rename_i hp
      cases h
      obtain ⟨t, ht⟩ := List.isPrefixOf_iff_prefix.1 hp
      rw [← ht]
      simp
    · obtain ⟨⟨a', b'⟩, hr, heq⟩ := Option.map_eq_some_iff.1 h
      cases heq
      simp [← ih hr]

theorem cut_shorter {pat s a b : List α} (hp : pat ≠ []) (h : cut pat s = some (a, b)) : b.length < s.length := by
  have hl : 0 < pat.length := List.length_pos_iff.2 hp
  rw [cut_eq h, List.length_append, List.length_append]
  omega

/-! ## Marks -/

/-- A marked word is not found before its mark. -/
theorem cut_skip {sep : α} {t : List α} (w s : List α) (ht : sep ∉ t) :
    cut (sep :: w) (t ++ s) = (cut (sep :: w) s).map fun r => (t ++ r.1, r.2) := by
  induction t with
  | nil => simp
  | cons c t ih =>
    obtain ⟨hc, ht⟩ := not_or.1 (mt List.mem_cons.2 ht)
    have hp : (sep :: w).isPrefixOf (c :: (t ++ s)) = false := by simp [List.isPrefixOf, hc]
    rw [List.cons_append, cut, hp, ih ht]
    simp [Option.map_map, Function.comp_def]

/-- A word without separators begins the text up to the separator or not at all. -/
theorem isPrefixOf_joined {sep : α} {w : List α} (hw : sep ∉ w) (t : List α) (ts : List (List α)) :
    w.isPrefixOf (t ++ joined sep ts) = w.isPrefixOf t := by
  induction w generalizing t with
  | nil => simp
  | cons a w ih =>
    obtain ⟨ha, hw⟩ := not_or.1 (mt List.mem_cons.2 hw)
    cases t with
    | nil => cases ts <;> simp [List.isPrefixOf, Ne.symm ha]
    | cons b t => simp [List.isPrefixOf, ih hw t]

/-- The first piece that begins with the word, the rest of it, and the pieces after it. -/
def cutPiece (w : List α) : List (List α) → Option (List α × List (List α))
  | [] => none
  | t :: ts => if w.isPrefixOf t then some (t.drop w.length, ts) else cutPiece w ts

theorem cut_joined {sep : α} {w : List α} (hw : sep ∉ w) {ts : List (List α)} (hts : ∀ t ∈ ts, sep ∉ t) :
    (cut (sep :: w) (joined sep ts)).map Prod.snd = (cutPiece w ts).map fun r => r.1 ++ joined sep r.2 := by
  induction ts with
  | nil => rfl
  | cons t ts ih =>
    have ht : sep ∉ t := hts t List.mem_cons_self
    have hpre : (sep :: w).isPrefixOf (sep :: (t ++ joined sep ts)) = w.isPrefixOf t := by
      simp [List.isPrefixOf, isPrefixOf_joined hw t ts]
    rw [joined_cons, cut, hpre, cutPiece]
    by_cases hp : w.isPrefixOf t = true
    · have hlen : w.length ≤ t.length := (List.isPrefixOf_iff_prefix.1 hp).length_le
      simp [hp, List.drop_append_of_le_length hlen]
    · rw [if_neg hp, if_neg hp, cut_skip w (joined sep ts) ht, Option.map_map, Option.map_map]
      exact ih fun u hu => hts u (List.mem_cons_of_mem t hu)

end ElectricEel.Lib
