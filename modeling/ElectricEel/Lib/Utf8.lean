/-
  ElectricEel.Lib.Utf8 — byte offsets into a text.

  A text is the list of its characters. A byte offset is a character boundary when it is the
  width of some characters at the front; `splitAtByte` has no answer elsewhere, inside a
  character and beyond the end. Searches answer with the byte offset of what they found.

  Proved: the width of a front is a boundary, and splits the text there (`splitAtByte_append`),
  so a text may be sliced at an offset computed from what was found before it
  (`sliceFrom_append`, `sliceTo_append`, `slice_append`); what the searches answer is such an
  offset (`find_eq`, `findChar_eq`).
-/
import ElectricEel.Lib.Text

namespace ElectricEel.Lib

/-! ## Widths -/

def byteLen (s : List Char) : Nat := (s.map Char.utf8Size).sum

@[simp] theorem byteLen_nil : byteLen [] = 0 := rfl

@[simp] theorem byteLen_cons (c : Char) (s : List Char) : byteLen (c :: s) = c.utf8Size + byteLen s := rfl

@[simp] theorem byteLen_append (a b : List Char) : byteLen (a ++ b) = byteLen a + byteLen b := by
  rw [byteLen, List.map_append, List.sum_append]
  rfl

/-! ## Slices -/

/-- The characters before and after byte n. -/
def splitAtByte : List Char → Nat → Option (List Char × List Char)
  | s, 0 => some ([], s)
  | [], _ + 1 => none
  | c :: s, n + 1 =>
    if n + 1 < c.utf8Size then none else (splitAtByte s (n + 1 - c.utf8Size)).map fun r => (c :: r.1, r.2)

/-- `&s[..n]`. -/
def sliceTo (s : List Char) (n : Nat) : Option (List Char) := (splitAtByte s n).map Prod.fst

/-- `&s[n..]`. -/
def sliceFrom (s : List Char) (n : Nat) : Option (List Char) := (splitAtByte s n).map Prod.snd

/-- `&s[i..j]`. -/
def slice (s : List Char) (i j : Nat) : Option (List Char) := (sliceTo s j).bind (sliceFrom · i)

theorem splitAtByte_append (a b : List Char) : splitAtByte (a ++ b) (byteLen a) = some (a, b) := by
  induction a with
  | nil => cases b <;> rfl
  | cons c a ih =>
    obtain ⟨n, hn⟩ : ∃ n, c.utf8Size + byteLen a = n + 1 := ⟨_, (Nat.succ_pred_eq_of_pos (Nat.add_pos_left c.utf8Size_pos _)).symm⟩
    have hrest : n + 1 - c.utf8Size = byteLen a := by omega
    rw [List.cons_append, byteLen_cons, hn, splitAtByte, if_neg (by omega), hrest, ih]
    rfl

theorem splitAtByte_eq {s a b : List Char} {n : Nat} (h : splitAtByte s n = some (a, b)) : s = a ++ b ∧ n = byteLen a := by
  induction s generalizing n a with
  | nil =>
    cases n with
    | zero =>
      cases h
      exact ⟨rfl, rfl⟩
    | succ n => cases h
  | cons c s ih =>
    cases n with
    | zero =>
      cases h
      exact ⟨rfl, rfl⟩
    | succ n =>
      rw [splitAtByte] at h
      split at h
      · cases h
      · rename_i hn
        obtain ⟨⟨a', b'⟩, hr, heq⟩ := Option.map_eq_some_iff.1 h
        cases heq
        obtain ⟨hs, hlen⟩ := ih hr
        refine ⟨by rw [hs]; rfl, ?_⟩
        rw [byteLen_cons, ← hlen]
        omega

theorem sliceFrom_append (a b : List Char) : sliceFrom (a ++ b) (byteLen a) = some b := by
  rw [sliceFrom, splitAtByte_append]
  rfl

theorem sliceTo_append (a b : List Char) : sliceTo (a ++ b) (byteLen a) = some a := by
  rw [sliceTo, splitAtByte_append]
  rfl

theorem slice_append (a b c : List Char) : slice (a ++ (b ++ c)) (byteLen a) (byteLen (a ++ b)) = some b := by
  rw [slice, ← List.append_assoc, sliceTo_append, Option.bind_some, sliceFrom_append]

/-! ## Searches -/

/-- `s.find(pat)`. -/
def find (pat s : List Char) : Option Nat := (cut pat s).map fun r => byteLen r.1

/-- `s.find(|c| p c)`. -/
def findChar (p : Char → Bool) (s : List Char) : Option Nat := if s.any p then some (byteLen (s.takeWhile (!p ·))) else none

/-- The offset behind what was found, and the text from there on. -/
theorem find_eq (pat s : List Char) :
    (find pat s = none ∧ cut pat s = none) ∨
      ∃ a b, find pat s = some (byteLen a) ∧ cut pat s = some (a, b) ∧ s = (a ++ pat) ++ b := by
  unfold find
  cases h : cut pat s with
  | none => exact .inl ⟨rfl, rfl⟩
  | some r => exact .inr ⟨r.1, r.2, rfl, rfl, by rw [cut_eq h, List.append_assoc]⟩

/-- Where the first such character stands, or where the text ends. -/
theorem findChar_eq (p : Char → Bool) (s : List Char) : (findChar p s).getD (byteLen s) = byteLen (s.takeWhile (!p ·)) := by
  unfold findChar
  split
  · rfl
  · rename_i h
    have hall : s.takeWhile (!p ·) = s := by
      rw [List.takeWhile_eq_self_iff]
      intro c hc
      rw [Bool.not_eq_true, List.any_eq_false] at h
      simpa using h c hc
    rw [hall]
    rfl

/-- The same behind a front. -/
theorem findChar_behind (p : Char → Bool) (a s : List Char) :
    ((findChar p s).elim (byteLen (a ++ s)) fun j => byteLen a + j) = byteLen (a ++ s.takeWhile (!p ·)) := by
  have hend := findChar_eq p s
  rw [byteLen_append a (s.takeWhile (!p ·)), ← hend]
  cases findChar p s with
  | none => exact byteLen_append a s
  | some j => rfl

/-- A search for one character: the text up to it, and the text from it on. -/
theorem findChar_char (c : Char) (s : List Char) :
    (findChar (· == c) s = none ∧ s.takeWhile (· ≠ c) = s ∧ s.dropWhile (· ≠ c) = []) ∨
      ∃ rest, findChar (· == c) s = some (byteLen (s.takeWhile (· ≠ c))) ∧ s.dropWhile (· ≠ c) = c :: rest := by
  induction s with
  | nil => exact .inl ⟨rfl, rfl, rfl⟩
  | cons d s ih =>
    by_cases hd : d = c
    · right
      exact ⟨s, by simp [findChar, hd], by simp [hd]⟩
    · have hfind : findChar (· == c) (d :: s) = (findChar (· == c) s).map (d.utf8Size + ·) := by
        simp only [findChar, List.any_cons, beq_false_of_ne hd, Bool.false_or, List.takeWhile_cons, Bool.not_false, if_true]
        split <;> rfl
      have htake : (d :: s).takeWhile (· ≠ c) = d :: s.takeWhile (· ≠ c) := by simp [hd]
      have hdrop : (d :: s).dropWhile (· ≠ c) = s.dropWhile (· ≠ c) := by simp [hd]
      rw [hfind, htake, hdrop]
      obtain ⟨hnone, hall, hnil⟩ | ⟨rest, hsome, hrest⟩ := ih
      · exact .inl ⟨by rw [hnone]; rfl, by rw [hall], hnil⟩
      · exact .inr ⟨rest, by rw [hsome]; rfl, hrest⟩

example : sliceFrom "a東京".toList 4 = some "京".toList ∧ sliceFrom "a東京".toList 3 = none := by decide

end ElectricEel.Lib
