/-
  ElectricEel.Arguments — a command's arguments from the dialog to the handler
  (ArgumentDialog.qml `onAccepted`, commands_vendor.go `execute` and `keywordArguments`).

  The dialog sends one string per argument, in order, and drops the optional empty ones at
  the end. The child checks the count and names the strings by position; an empty
  optional slot names nothing.

  Proved: the list is the required values and the optional ones up to the last that is not
  empty (`onAccepted_eq`); it passes the arity check and is read back by name
  (`keywordArguments_onAccepted`).
-/
import Mathlib.Data.List.DropRight

namespace ElectricEel.Arguments

/-- A command's argument names, all different: a value by name is one by position. -/
structure Shape where
  args : List String
  optional : List String
  nodup : (args ++ optional).Nodup

/-! ## The dialog -/

/-- An entry of `commandDef.args`; none is an undefined `__value`. -/
structure ArgSpec where
  name : String
  optional : Bool
  value : Option String
  deriving DecidableEq, Repr

/-- `while (out.length > 0 && ...) out.pop()`, by the length of `out`. -/
def popTrailing (args : List ArgSpec) : Nat → List String → List String
  | 0, out => out
  | n + 1, out =>
    if (args[n]?).any (·.optional) ∧ out[n]? = some "" then popTrailing args n out.dropLast else out

def onAccepted (args : List ArgSpec) : List String :=
  let out := args.map fun a => a.value.getD ""
  popTrailing args out.length out

/-- The dialog of a command, each field filled by name. -/
def Shape.dialog (s : Shape) (value : String → Option String) : List ArgSpec :=
  s.args.map (fun n => { name := n, optional := false, value := value n }) ++
    s.optional.map fun n => { name := n, optional := true, value := value n }

/-! ## The child -/

/-- `execute`'s check on the arguments behind the command's name. -/
def arityOk (s : Shape) (args : List String) : Bool :=
  !(args.length < s.args.length || s.args.length + s.optional.length < args.length)

abbrev Keywords := String → Option String

def Keywords.set (k : Keywords) (name value : String) : Keywords := fun n => if n = name then some value else k n

def setRequired (k : Keywords) (p : String × String) : Keywords := k.set p.1 p.2

/-- An empty slot leaves the default to the handler. -/
def setOptional (k : Keywords) (p : String × String) : Keywords := if p.2 ≠ "" then k.set p.1 p.2 else k

def keywordArguments (s : Shape) (args : List String) : Keywords :=
  (s.optional.zip (args.drop s.args.length)).foldl setOptional
    ((s.args.zip args).foldl setRequired fun _ => none)

/-! ## What the dialog sends -/

variable (s : Shape) (value : String → Option String)

/-- A field's text. -/
def text (n : String) : String := (value n).getD ""

theorem dialog_values :
    (s.dialog value).map (fun a => a.value.getD "") = s.args.map (text value) ++ s.optional.map (text value) := by
  simp only [Shape.dialog, List.map_append, List.map_map]
  rfl

theorem dialog_optional (n : Nat) :
    ((s.dialog value)[n]?).any (·.optional) = decide (s.args.length ≤ n ∧ n < s.args.length + s.optional.length) := by
  by_cases hn : n < s.args.length
  · have hge : ¬(s.args.length ≤ n ∧ n < s.args.length + s.optional.length) := by omega
    simp [Shape.dialog, List.getElem?_append_left, hn, hge]
  · rw [Shape.dialog, List.getElem?_append_right (by simpa using hn)]
    by_cases ho : n - s.args.length < s.optional.length
    · have hlt : n < s.args.length + s.optional.length := by omega
      simp [List.getElem?_map, List.getElem?_eq_getElem ho, hlt, Nat.not_lt.1 hn]
    · have hge : ¬n < s.args.length + s.optional.length := by omega
      simp [List.getElem?_map, List.getElem?_eq_none (Nat.not_lt.1 ho), hge]

/-- The loop with the first k optional values left: it drops the empty ones at the end,
    and stops at the required ones. -/
theorem popTrailing_eq (k : Nat) (hk : k ≤ s.optional.length) :
    popTrailing (s.dialog value) (s.args.length + k) (s.args.map (text value) ++ (s.optional.map (text value)).take k) =
      s.args.map (text value) ++ ((s.optional.map (text value)).take k).rdropWhile (· == "") := by
  induction k with
  | zero =>
    cases hr : s.args.length with
    | zero => rfl
    | succ m =>
      have hopt := dialog_optional s value m
      rw [hr, decide_eq_false (by omega)] at hopt
      simp [popTrailing, hopt]
  | succ k ih =>
    have hlt : k < (s.optional.map (text value)).length := by
      rw [List.length_map]
      omega
    have hopt := dialog_optional s value (s.args.length + k)
    rw [decide_eq_true (by omega)] at hopt
    have htake := List.take_succ_eq_append_getElem hlt
    have hlast : (s.args.map (text value) ++ (s.optional.map (text value)).take (k + 1))[s.args.length + k]? =
        some (s.optional.map (text value))[k] := by
      rw [List.getElem?_append_right (by simp), List.length_map, Nat.add_sub_cancel_left, List.getElem?_take_of_lt (by omega),
        List.getElem?_eq_getElem hlt]
    rw [← Nat.add_assoc, popTrailing, hopt, hlast]
    by_cases he : (s.optional.map (text value))[k] = ""
    · rw [if_pos ⟨rfl, by rw [he]⟩, htake, ← List.append_assoc, List.dropLast_concat, he, ih (by omega),
        List.rdropWhile_concat_pos _ _ _ (by simp)]
    · rw [if_neg (by rintro ⟨_, h⟩; exact he (Option.some.inj h)), htake, List.rdropWhile_concat_neg _ _ _ (by simpa using he)]

theorem onAccepted_eq :
    onAccepted (s.dialog value) = s.args.map (text value) ++ (s.optional.map (text value)).rdropWhile (· == "") := by
  have hloop := popTrailing_eq s value s.optional.length (Nat.le_refl _)
  have hlen : (s.optional.map (text value)).length = s.optional.length := List.length_map ..
  rw [← hlen, List.take_length] at hloop
  rw [onAccepted, dialog_values, List.length_append, List.length_map]
  exact hloop

/-! ## What the handler gets -/

theorem foldl_setRequired (ns : List String) (k : Keywords) (n : String) :
    (ns.zip (ns.map (text value))).foldl setRequired k n = if n ∈ ns then some (text value n) else k n := by
  induction ns generalizing k with
  | nil => rfl
  | cons a ns ih =>
    rw [List.map_cons, List.zip_cons_cons, List.foldl_cons, ih]
    by_cases hmem : n ∈ ns
    · simp [hmem]
    · by_cases ha : n = a
      · simp [setRequired, Keywords.set, ha]
      · simp [setRequired, Keywords.set, hmem, ha]

theorem foldl_setOptional_full (ns : List String) (k : Keywords) (n : String) :
    (ns.zip (ns.map (text value))).foldl setOptional k n = if n ∈ ns ∧ text value n ≠ "" then some (text value n) else k n := by
  induction ns generalizing k with
  | nil => simp
  | cons a ns ih =>
    rw [List.map_cons, List.zip_cons_cons, List.foldl_cons, ih]
    by_cases hmem : n ∈ ns ∧ text value n ≠ ""
    · simp [hmem]
    · rw [if_neg hmem]
      by_cases ha : n = a
      · by_cases hv : text value a = "" <;> simp [setOptional, Keywords.set, ha, hv]
      · have hno : ¬(n ∈ a :: ns ∧ text value n ≠ "") := by
          rintro ⟨h, hv⟩
          exact hmem ⟨(List.mem_cons.1 h).resolve_left ha, hv⟩
        rw [if_neg hno]
        by_cases hv : text value a = "" <;> simp [setOptional, Keywords.set, ha, hv]

/-- Empty slots at the end name nothing. -/
theorem foldl_setOptional_append (ns ts es : List String) (hes : ∀ e ∈ es, e = "") (k : Keywords) :
    (ns.zip (ts ++ es)).foldl setOptional k = (ns.zip ts).foldl setOptional k := by
  induction ts generalizing ns k with
  | nil =>
    have hskip : ∀ p ∈ ns.zip es, p.2 = "" := fun p hp => hes p.2 (List.of_mem_zip hp).2
    rw [List.nil_append, List.zip_nil_right, List.foldl_nil]
    generalize ns.zip es = ps at hskip
    induction ps with
    | nil => rfl
    | cons p ps ih =>
      rw [List.foldl_cons, setOptional, if_neg (by simp [hskip p List.mem_cons_self])]
      exact ih fun q hq => hskip q (List.mem_cons_of_mem p hq)
  | cons t ts ih =>
    cases ns with
    | nil => rfl
    | cons a ns =>
      rw [List.cons_append, List.zip_cons_cons, List.zip_cons_cons, List.foldl_cons, List.foldl_cons]
      exact ih ns _

/-- Every required name has its value, every optional name its value where that is not
    empty, and no other name has any; the count is one `execute` accepts. -/
theorem keywordArguments_onAccepted :
    arityOk s (onAccepted (s.dialog value)) = true ∧
      ∀ n, keywordArguments s (onAccepted (s.dialog value)) n =
        if n ∈ s.args ∨ n ∈ s.optional ∧ text value n ≠ "" then some (text value n) else none := by
  have hsplit : s.optional.map (text value) =
      (s.optional.map (text value)).rdropWhile (· == "") ++ (s.optional.map (text value)).rtakeWhile (· == "") :=
    (List.rdropWhile_append_rtakeWhile ..).symm
  constructor
  · have hle : ((s.optional.map (text value)).rdropWhile (· == "")).length ≤ s.optional.length := by
      have h := (List.rdropWhile_prefix (· == "") (s.optional.map (text value))).length_le
      rwa [List.length_map] at h
    rw [onAccepted_eq, arityOk, List.length_append, List.length_map]
    simp only [Bool.not_eq_true', Bool.or_eq_false_iff, decide_eq_false_iff_not]
    omega
  · intro n
    have hdrop : (s.args.map (text value) ++ (s.optional.map (text value)).rdropWhile (· == "")).drop s.args.length =
        (s.optional.map (text value)).rdropWhile (· == "") := by
      rw [List.drop_append, List.length_map]
      simp
    have hzip : s.args.zip (s.args.map (text value) ++ (s.optional.map (text value)).rdropWhile (· == "")) =
        s.args.zip (s.args.map (text value)) := by
      have hlen : s.args.length = (s.args.map (text value)).length := (List.length_map (text value)).symm
      have happ := @List.zip_append _ _ s.args [] _ ((s.optional.map (text value)).rdropWhile (· == "")) hlen
      rwa [List.append_nil, List.zip_nil_left, List.append_nil] at happ
    have hfull := foldl_setOptional_append s.optional ((s.optional.map (text value)).rdropWhile (· == ""))
      ((s.optional.map (text value)).rtakeWhile (· == "")) (fun e he => by simpa using List.mem_rtakeWhile_imp he)
    rw [onAccepted_eq, keywordArguments, hdrop, hzip, ← hfull, ← hsplit, foldl_setOptional_full, foldl_setRequired]
    by_cases ha : n ∈ s.args
    · simp [ha]
    · by_cases ho : n ∈ s.optional ∧ text value n ≠ "" <;> simp [ha, ho]

def preconditionScheduleAdd : Shape where
  args := ["DAYS", "TIME", "LATITUDE", "LONGITUDE"]
  optional := ["REPEAT", "ID", "ENABLED"]
  nodup := by decide

example : onAccepted (preconditionScheduleAdd.dialog fun n => if n = "REPEAT" ∨ n = "ENABLED" then none else some n) =
    ["DAYS", "TIME", "LATITUDE", "LONGITUDE", "", "ID"] := by decide

end ElectricEel.Arguments
