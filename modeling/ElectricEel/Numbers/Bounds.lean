/-
  ElectricEel.Numbers.Bounds — what reaches the vehicle of a number that was validated.

  A command goes through `validate_arg_ranges` and then through its Go handler, each reading
  the argument for itself. The DELAY of software-update-start is bounded where it is given
  in seconds; a Go duration with another unit last is let through, whatever its length.

  Proved: every action of a command that both accept carries the validated number, within
  its bounds (`accepted_proper`); 2h is such a command, and beyond them (`delay_hours`).
-/
import ElectricEel.Numbers.Agreement
import ElectricEel.Numbers.Handlers

namespace ElectricEel.Numbers

open Arguments Config Commands Share

/-! ## Arguments by name -/

/-- The argument at a position. -/
def argumentAt (args : List String) (i : Nat) : List Char := (args[i]?.getD "").toList

theorem foldl_setRequired_other {ps : List (String × String)} {n : String} (h : ∀ p ∈ ps, p.1 ≠ n) (k : Keywords) :
    ps.foldl setRequired k n = k n := by
  induction ps generalizing k with
  | nil => rfl
  | cons p ps ih =>
    have hp : n ≠ p.1 := (h p List.mem_cons_self).symm
    rw [List.foldl_cons, ih fun q hq => h q (List.mem_cons_of_mem p hq)]
    simp [setRequired, Keywords.set, hp]

theorem foldl_setOptional_other {ps : List (String × String)} {n : String} (h : ∀ p ∈ ps, p.1 ≠ n) (k : Keywords) :
    ps.foldl setOptional k n = k n := by
  induction ps generalizing k with
  | nil => rfl
  | cons p ps ih =>
    have hp : n ≠ p.1 := (h p List.mem_cons_self).symm
    rw [List.foldl_cons, ih fun q hq => h q (List.mem_cons_of_mem p hq)]
    by_cases he : p.2 = "" <;> simp [setOptional, Keywords.set, he, hp]

theorem foldl_setRequired_at {ns args : List String} (hnodup : ns.Nodup) {i : Nat} {n a : String} (hn : ns[i]? = some n)
    (ha : args[i]? = some a) (k : Keywords) : (ns.zip args).foldl setRequired k n = some a := by
  induction ns generalizing args i k with
  | nil => cases hn
  | cons m ns ih =>
    obtain ⟨hm, hnodup⟩ := List.nodup_cons.1 hnodup
    cases args with
    | nil => cases ha
    | cons b args =>
      rw [List.zip_cons_cons, List.foldl_cons]
      cases i with
      | zero =>
        cases hn
        cases ha
        rw [foldl_setRequired_other]
        · simp [setRequired, Keywords.set]
        · intro p hp heq
          exact hm (heq ▸ (List.of_mem_zip hp).1)
      | succ i => exact ih hnodup hn ha _

/-- A required argument by name is one by position. -/
theorem argument_required {s : Shape} {args : List String} (hargs : arityOk s args = true) {i : Nat} {n : String}
    (hn : s.args[i]? = some n) : argument (keywordArguments s args) n = argumentAt args i := by
  have hmem : n ∈ s.args := List.mem_of_getElem? hn
  have hi : i < s.args.length := (List.getElem?_eq_some_iff.1 hn).1
  have hlen : i < args.length := by
    simp only [arityOk, Bool.not_eq_true', Bool.or_eq_false_iff, decide_eq_false_iff_not] at hargs
    omega
  obtain ⟨hrequired, -, hapart⟩ := List.nodup_append.1 s.nodup
  have hat := foldl_setRequired_at hrequired hn (List.getElem?_eq_getElem hlen) (fun _ => none)
  rw [argument, keywordArguments, foldl_setOptional_other, hat, argumentAt, List.getElem?_eq_getElem hlen]
  intro p hp heq
  exact hapart n hmem p.1 (List.of_mem_zip hp).1 heq.symm

theorem oneArgument_args {n : String} {args : List String} (h : arityOk (oneArgument n) args = true) : ∃ a, args = [a] := by
  cases args with
  | nil => cases h
  | cons a args =>
    cases args with
    | nil => exact ⟨a, rfl⟩
    | cons b args => simp [arityOk, oneArgument] at h

/-! ## What is validated -/

variable {cmd : Cmd} {a : String} {args : List String}

theorem validateInteger_spec {lo hi : Int} (h : validateInteger lo hi cmd [a] = .ok ()) :
    ∃ v, parseIntArg a.toList = some v ∧ lo ≤ v ∧ v ≤ hi := by
  simp only [validateInteger, List.head?_cons] at h
  split at h
  · cases h
  · rename_i v hv
    split at h
    · rename_i hr
      exact ⟨v, hv, hr⟩
    · cases h

theorem validateMinutes_spec (h : validateMinutes cmd [a] = .ok ()) : ∃ v, parseIntArg a.toList = some v ∧ 0 ≤ v ∧ v ≤ 1439 := by
  simp only [validateMinutes, List.head?_cons] at h
  split at h
  · cases h
  · rename_i v hv
    split at h
    · rename_i hr
      exact ⟨v, hv, hr⟩
    · cases h

theorem validateVolume_spec (h : validateVolume cmd [a] = .ok ()) : ∃ x, parseFloatArg a.toList = some x ∧ floatIn 0 10 x = true := by
  simp only [validateVolume, List.head?_cons] at h
  split at h
  · cases h
  · rename_i x hx
    split at h
    · rename_i hr
      exact ⟨x, hx, hr⟩
    · cases h

/-- A temperature is Fahrenheit with an F, and Celsius otherwise. -/
def Fahrenheit (arg : List Char) : Prop := (stripUnit arg).2.map Char.toUpper = some 'F'

theorem validateTemp_spec (h : validateTemp cmd [a] = .ok ()) :
    ∃ x, parseFloatArg (stripUnit a.toList).1 = some x ∧ (Fahrenheit a.toList → floatIn 59 82 x = true) ∧
      (¬ Fahrenheit a.toList → floatIn 15 28 x = true) := by
  simp only [validateTemp, List.head?_cons] at h
  split at h
  · cases h
  · rename_i x hx
    refine ⟨x, hx, ?_, ?_⟩
    · intro hf
      have hunit : (stripUnit a.toList).2.map Char.toUpper = some 'F' := hf
      rw [if_pos hunit] at h
      by_contra hr
      rw [if_neg hr] at h
      cases h
    · intro hf
      have hunit : ¬(stripUnit a.toList).2.map Char.toUpper = some 'F' := hf
      rw [if_neg hunit] at h
      by_contra hr
      rw [if_neg hr] at h
      cases h

theorem validateDelay_spec (h : validateDelay cmd [a] = .ok ()) :
    (trimChars a.toList).head? ≠ some '-' ∧
      (InSeconds a.toList →
        ∃ v, parseIntArg (if (stripUnit a.toList).2.isSome then (stripUnit a.toList).1 else a.toList) = some v ∧ 0 ≤ v ∧ v ≤ 3600) := by
  simp only [validateDelay, List.head?_cons] at h
  split at h
  · cases h
  · rename_i hhead
    refine ⟨hhead, fun hs => ?_⟩
    have hunit : (stripUnit a.toList).2.map Char.toLower = some 's' ∨ (stripUnit a.toList).2 = none := hs
    rw [if_pos hunit] at h
    split at h
    · cases h
    · rename_i v hv
      split at h
      · rename_i hr
        exact ⟨v, hv, hr⟩
      · cases h

theorem validateSchedule_spec {lat lon : String} (h : validateSchedule cmd args = .ok ()) (hlat : args[2]? = some lat)
    (hlon : args[3]? = some lon) :
    (∃ x, parseFloatArg lat.toList = some x ∧ floatIn (-90) 90 x = true) ∧
      ∃ x, parseFloatArg lon.toList = some x ∧ floatIn (-180) 180 x = true := by
  have hdegree : ∀ {bound : Int} {arg : String}, validateDegree cmd bound (some arg) = .ok () →
      ∃ x, parseFloatArg arg.toList = some x ∧ floatIn (-bound) bound x = true := by
    intro bound arg hd
    simp only [validateDegree] at hd
    split at hd
    · cases hd
    · rename_i x hx
      split at hd
      · rename_i hr
        exact ⟨x, hx, hr⟩
      · cases hd
  rw [validateSchedule, hlat, hlon] at h
  split at h
  · cases h
  · rename_i hok
    exact ⟨hdegree hok, hdegree h⟩

/-! ## What reaches the vehicle -/

/-- The float32 of a text the parent read, within bounds. -/
def ProperFloat (arg : List Char) (lo hi : Int) (y : F32) : Prop := (∃ x, parseFloatArg arg = some x ∧ Rounds x y) ∧ y.Between lo hi

/-- A temperature in Celsius, converted if it was given in Fahrenheit. -/
def ProperTemp (arg : List Char) (y : F32) : Prop :=
  (∃ x z, parseFloatArg (stripUnit arg).1 = some x ∧ Rounds x z ∧ (Fahrenheit arg ∧ y = ((z.sub 32).mul 5).div 9 ∨ ¬ Fahrenheit arg ∧ y = z)) ∧
    y.Between 15 28

/-- In seconds, the validated seconds; in any unit, the whole seconds of the duration
    where they fit. -/
structure ProperDelay (arg : List Char) (offsetSec : Int) : Prop where
  seconds : InSeconds arg →
    parseIntArg (if (stripUnit arg).2.isSome then (stripUnit arg).1 else arg) = some offsetSec ∧ 0 ≤ offsetSec ∧ offsetSec ≤ 3600
  whole : ∀ delay, parseDuration arg = some delay → delay < 2 ^ 31 * second → offsetSec = delay / second ∧ 0 ≤ offsetSec

/-- The numbers of an action are the validated ones, within their bounds. -/
def Proper (args : List String) : Action → Prop
  | .chargingSetLimit percent => parseIntArg (argumentAt args 0) = some percent ∧ 50 ≤ percent ∧ percent ≤ 100
  | .setChargingAmps amps => parseIntArg (argumentAt args 0) = some amps ∧ 1 ≤ amps ∧ amps ≤ 48
  | .scheduledCharging _ minutes => parseIntArg (argumentAt args 0) = some minutes ∧ 0 ≤ minutes ∧ minutes ≤ 1439
  | .mediaUpdateVolume volume => ProperFloat (argumentAt args 0) 0 10 volume
  | .hvacTemperatureAdjustment driver passenger => ProperTemp (argumentAt args 0) driver ∧ passenger = driver
  | .vehicleControlScheduleSoftwareUpdate offsetSec => ProperDelay (argumentAt args 0) offsetSec
  | .addChargeSchedule schedule =>
    ProperFloat (argumentAt args 2) (-90) 90 schedule.latitude ∧ ProperFloat (argumentAt args 3) (-180) 180 schedule.longitude
  | .addPreconditionSchedule schedule =>
    ProperFloat (argumentAt args 2) (-90) 90 schedule.latitude ∧ ProperFloat (argumentAt args 3) (-180) 180 schedule.longitude

variable {intSize now : Nat} {action : Action}

/-- One argument, by its name. -/
theorem oneArgument_argument {n : String} (h : arityOk (oneArgument n) [a] = true) :
    argument (keywordArguments (oneArgument n) [a]) n = a.toList := by
  have hat := argument_required (i := 0) (n := n) h rfl
  exact hat

/-- An integer that both read, narrowed to 32 bits. -/
theorem int32_atoi {lo hi v n : Int} {s : List Char} (hv : parseIntArg s = some v) (hr : lo ≤ v ∧ v ≤ hi) (hn : atoi intSize s = some n)
    (hlo : -2 ^ 31 ≤ lo) (hhi : hi < 2 ^ 31) : n = v ∧ int32 n = v := by
  have heq : n = v := parseIntArg_atoi hv hn
  exact ⟨heq, by rw [heq]; exact int32_eq (by omega) (by omega)⟩

theorem setLimit_proper (hv : validateInteger 50 100 cmd [a] = .ok ()) (ha : arityOk (oneArgument "PERCENT") [a] = true)
    (hh : handleSetLimit intSize (keywordArguments (oneArgument "PERCENT") [a]) = some action) : Proper [a] action := by
  obtain ⟨v, hv, hr⟩ := validateInteger_spec hv
  rw [handleSetLimit, oneArgument_argument ha] at hh
  obtain ⟨n, hn, rfl⟩ := Option.map_eq_some_iff.1 hh
  obtain ⟨-, h32⟩ := int32_atoi hv hr hn (by decide) (by decide)
  rw [h32]
  exact ⟨hv, hr⟩

theorem setAmps_proper (hv : validateInteger 1 48 cmd [a] = .ok ()) (ha : arityOk (oneArgument "AMPS") [a] = true)
    (hh : handleSetAmps intSize (keywordArguments (oneArgument "AMPS") [a]) = some action) : Proper [a] action := by
  obtain ⟨v, hv, hr⟩ := validateInteger_spec hv
  rw [handleSetAmps, oneArgument_argument ha] at hh
  obtain ⟨n, hn, rfl⟩ := Option.map_eq_some_iff.1 hh
  obtain ⟨-, h32⟩ := int32_atoi hv hr hn (by decide) (by decide)
  rw [h32]
  exact ⟨hv, hr⟩

theorem schedule_proper (hv : validateMinutes cmd [a] = .ok ()) (ha : arityOk (oneArgument "MINS") [a] = true)
    (hh : handleSchedule intSize (keywordArguments (oneArgument "MINS") [a]) = some action) : Proper [a] action := by
  obtain ⟨v, hv, hr⟩ := validateMinutes_spec hv
  rw [handleSchedule, oneArgument_argument ha] at hh
  obtain ⟨n, hn, rfl⟩ := Option.map_eq_some_iff.1 hh
  obtain ⟨heq, h32⟩ := int32_atoi hv hr hn (by decide) (by decide)
  have hminute : minute = 60000000000 := by decide
  have hwide : int64 (n * minute) = n * minute := int64_eq (by rw [hminute]; omega) (by rw [hminute]; omega)
  have hwhole : (n * minute).tdiv minute = n := Int.mul_tdiv_cancel n (by rw [hminute]; decide)
  rw [scheduleCharging, hwide, hwhole, h32]
  exact ⟨hv, hr⟩

theorem volume_proper (hv : validateVolume cmd [a] = .ok ()) (ha : arityOk (oneArgument "VOLUME") [a] = true)
    (hh : handleVolume (keywordArguments (oneArgument "VOLUME") [a]) = some action) : Proper [a] action := by
  obtain ⟨x, hx, hr⟩ := validateVolume_spec hv
  rw [handleVolume, oneArgument_argument ha] at hh
  obtain ⟨y, hy, hset⟩ := Option.bind_eq_some_iff.1 hh
  obtain ⟨hround, hfin⟩ := parseFloatArg_parseFloat hx hy
  have haction : action = .mediaUpdateVolume y := by
    cases y with
    | fin n =>
      simp only [setVolume] at hset
      split at hset
      · cases hset
      · exact (Option.some.inj hset).symm
    | _ => cases hfin
  rw [haction]
  exact ⟨⟨x, hx, hround⟩, hround.between hfin (by decide) (by decide) hr⟩

theorem temp_proper (hv : validateTemp cmd [a] = .ok ()) (ha : arityOk (oneArgument "TEMP") [a] = true)
    (hh : handleTemp intSize (keywordArguments (oneArgument "TEMP") [a]) = some action) : Proper [a] action := by
  obtain ⟨x, hx, hfahrenheit, hcelsius⟩ := validateTemp_spec hv
  rw [handleTemp, oneArgument_argument ha] at hh
  split at hh
  · cases hh
  · rename_i degrees unit hscan
    have hunit : ∀ c : Char, ¬ Plain c → unit = [c] →
        (stripUnit a.toList).2 = some c ∧ Rounds x degrees ∧ degrees.isFinite = true := by
      intro c hc heq
      rw [heq] at hscan
      exact stripUnit_sscanf hc hx hscan
    split at hh
    · rename_i hF
      have hboth : Fahrenheit a.toList ∧ Rounds x degrees ∧ degrees.isFinite = true := by
        rcases hF with hF | hF
        · obtain ⟨hs, hr⟩ := hunit 'F' (by decide) hF
          exact ⟨by rw [Fahrenheit, hs]; rfl, hr⟩
        · obtain ⟨hs, hr⟩ := hunit 'f' (by decide) hF
          exact ⟨by rw [Fahrenheit, hs]; rfl, hr⟩
      obtain ⟨hf, hround, hfin⟩ := hboth
      cases hh
      have hbounds := hround.between hfin (by decide) (by decide) (hfahrenheit hf)
      exact ⟨⟨⟨x, degrees, hx, hround, .inl ⟨hf, rfl⟩⟩, celsius_between hbounds⟩, rfl⟩
    · split at hh
      · rename_i hC
        have hboth : ¬ Fahrenheit a.toList ∧ Rounds x degrees ∧ degrees.isFinite = true := by
          rcases hC with hC | hC
          · obtain ⟨hs, hr⟩ := hunit 'C' (by decide) hC
            exact ⟨by rw [Fahrenheit, hs]; decide, hr⟩
          · obtain ⟨hs, hr⟩ := hunit 'c' (by decide) hC
            exact ⟨by rw [Fahrenheit, hs]; decide, hr⟩
        obtain ⟨hf, hround, hfin⟩ := hboth
        cases hh
        have hbounds := hround.between hfin (by decide) (by decide) (hcelsius hf)
        exact ⟨⟨⟨x, degrees, hx, hround, .inr ⟨hf, rfl⟩⟩, hbounds⟩, rfl⟩
      · cases hh

theorem delay_proper (hv : validateDelay cmd [a] = .ok ()) (ha : arityOk (oneArgument "DELAY") [a] = true)
    (hh : handleUpdate (keywordArguments (oneArgument "DELAY") [a]) = some action) : Proper [a] action := by
  obtain ⟨hhead, hseconds⟩ := validateDelay_spec hv
  rw [handleUpdate, oneArgument_argument ha] at hh
  obtain ⟨d, hd, rfl⟩ := Option.map_eq_some_iff.1 hh
  have hsecond : (second : Int) = 1000000000 := by decide
  refine ⟨fun hs => ?_, fun delay hdelay hlt => ?_⟩
  · obtain ⟨v, hv, hr⟩ := hseconds hs
    have hwhole : d.tdiv second = v := by
      rw [parseDuration_seconds hs hhead hv hr hd]
      exact Int.mul_tdiv_cancel v (by rw [hsecond]; decide)
    rw [hwhole, int32_eq (by omega) (by omega)]
    exact ⟨hv, hr⟩
  · have heq : delay = d := by
      have hdelay' : parseDuration a.toList = some delay := hdelay
      rw [hd] at hdelay'
      exact (Option.some.inj hdelay').symm
    have hnonneg : 0 ≤ d := parseDuration_nonneg hd hhead
    have hwhole : d.tdiv second = d / second := Int.tdiv_eq_ediv_of_nonneg hnonneg
    rw [heq] at hlt ⊢
    rw [hsecond] at hlt hwhole ⊢
    have hfits : int32 (d / 1000000000) = d / 1000000000 := int32_eq (by omega) (by omega)
    rw [hwhole, hfits]
    exact ⟨rfl, by omega⟩

/-- A coordinate of a schedule. -/
theorem degree_proper {s : List Char} {bound : Int} {x : F64} {y : F32} (hx : parseFloatArg s = some x)
    (hr : floatIn (-bound) bound x = true) (hb : bound.natAbs < 2 ^ 24) (hy : getDegree s = some y) : ProperFloat s (-bound) bound y := by
  have hread : parseFloat s = some y := by
    unfold getDegree at hy
    split at hy
    · rename_i n hn
      split at hy
      · cases hy
      · rw [hn, ← hy]
    · rename_i hn
      rw [hn, ← hy]
    · cases hy
  obtain ⟨hround, hfin⟩ := parseFloatArg_parseFloat hx hread
  exact ⟨⟨x, hx, hround⟩, hround.between hfin (by rwa [Int.natAbs_neg]) hb hr⟩

/-- The coordinates of a schedule that was validated, by name. -/
theorem coordinates_proper {s : Shape} (hlat : s.args[2]? = some "LATITUDE") (hlon : s.args[3]? = some "LONGITUDE")
    (hv : validateSchedule cmd args = .ok ()) (ha : arityOk s args = true) {latitude longitude : F32}
    (hlat' : getDegree (argument (keywordArguments s args) "LATITUDE") = some latitude)
    (hlon' : getDegree (argument (keywordArguments s args) "LONGITUDE") = some longitude) :
    ProperFloat (argumentAt args 2) (-90) 90 latitude ∧ ProperFloat (argumentAt args 3) (-180) 180 longitude := by
  have hi : 3 < s.args.length := (List.getElem?_eq_some_iff.1 hlon).1
  have hlen : 3 < args.length := by
    simp only [arityOk, Bool.not_eq_true', Bool.or_eq_false_iff, decide_eq_false_iff_not] at ha
    omega
  have htwo : args[2]? = some args[2] := List.getElem?_eq_getElem (by omega)
  have hthree : args[3]? = some args[3] := List.getElem?_eq_getElem hlen
  obtain ⟨⟨x, hx, hxr⟩, z, hz, hzr⟩ := validateSchedule_spec hv htwo hthree
  rw [argument_required ha hlat] at hlat'
  rw [argument_required ha hlon] at hlon'
  have hat : ∀ {i : Nat} {v : String}, args[i]? = some v → argumentAt args i = v.toList := by
    intro i v hv
    rw [argumentAt, hv]
    rfl
  rw [hat htwo] at hlat' ⊢
  rw [hat hthree] at hlon' ⊢
  exact ⟨degree_proper hx hxr (by decide) hlat', degree_proper hz hzr (by decide) hlon'⟩

theorem chargeSchedule_proper (hv : validateSchedule cmd args = .ok ()) (ha : arityOk chargingScheduleAdd args = true)
    (hh : handleChargeSchedule intSize now (keywordArguments chargingScheduleAdd args) = some action) : Proper args action := by
  obtain ⟨days, -, hh⟩ := Option.bind_eq_some_iff.1 hh
  split at hh
  · obtain ⟨start, -, hh⟩ := Option.bind_eq_some_iff.1 hh
    obtain ⟨stop, -, hh⟩ := Option.bind_eq_some_iff.1 hh
    obtain ⟨latitude, hlat, hh⟩ := Option.bind_eq_some_iff.1 hh
    obtain ⟨longitude, hlon, hh⟩ := Option.bind_eq_some_iff.1 hh
    cases hh
    exact coordinates_proper (s := chargingScheduleAdd) rfl rfl hv ha hlat hlon
  · cases hh

theorem preconditionSchedule_proper (hv : validateSchedule cmd args = .ok ()) (ha : arityOk preconditionScheduleAdd args = true)
    (hh : handlePreconditionSchedule intSize now (keywordArguments preconditionScheduleAdd args) = some action) : Proper args action := by
  obtain ⟨id, -, hh⟩ := Option.bind_eq_some_iff.1 hh
  obtain ⟨days, -, hh⟩ := Option.bind_eq_some_iff.1 hh
  obtain ⟨time, -, hh⟩ := Option.bind_eq_some_iff.1 hh
  obtain ⟨latitude, hlat, hh⟩ := Option.bind_eq_some_iff.1 hh
  obtain ⟨longitude, hlon, hh⟩ := Option.bind_eq_some_iff.1 hh
  cases hh
  exact coordinates_proper (s := preconditionScheduleAdd) rfl rfl hv ha hlat hlon

/-- Whatever a command's arguments are: validated, and taken by the handler, they hand
    the vehicle the validated numbers within their bounds. -/
theorem accepted_proper (intSize now : Nat) (cmd : Vendor) (args : List String) (action : Action)
    (hv : validateArgRanges (.vendor cmd) args = .ok ()) (hg : execute intSize now cmd args = some action) : Proper args action := by
  obtain ⟨c, hc, hg⟩ := Option.bind_eq_some_iff.1 hg
  by_cases ha : arityOk c.1 args = true
  · rw [if_pos ha] at hg
    unfold boundedCommand at hc
    split at hc
    all_goals cases hc
    · obtain ⟨a, rfl⟩ := oneArgument_args ha
      exact setLimit_proper hv ha hg
    · obtain ⟨a, rfl⟩ := oneArgument_args ha
      exact setAmps_proper hv ha hg
    · obtain ⟨a, rfl⟩ := oneArgument_args ha
      exact schedule_proper hv ha hg
    · obtain ⟨a, rfl⟩ := oneArgument_args ha
      exact volume_proper hv ha hg
    · obtain ⟨a, rfl⟩ := oneArgument_args ha
      exact temp_proper hv ha hg
    · obtain ⟨a, rfl⟩ := oneArgument_args ha
      exact delay_proper hv ha hg
    · exact chargeSchedule_proper hv ha hg
    · exact preconditionSchedule_proper hv ha hg
  · rw [if_neg ha] at hg
    cases hg

theorem accepted_proper_fahrenheit :
    Proper [" 7.7e1F "] (.hvacTemperatureAdjustment (.fin (25 * 2 ^ 149)) (.fin (25 * 2 ^ 149))) ∧
      Proper ["3600s"] (.vehicleControlScheduleSoftwareUpdate 3600) :=
  ⟨accepted_proper 64 0 .climateSetTemp [" 7.7e1F "] _ (by decide +kernel) (by decide +kernel),
    accepted_proper 64 0 .softwareUpdateStart ["3600s"] _ (by decide +kernel) (by decide +kernel)⟩

/-- 2h is let through, and is 7200 seconds. -/
theorem delay_hours :
    ¬∀ (args : List String) (offsetSec : Int), validateArgRanges (.vendor .softwareUpdateStart) args = .ok () →
      execute 64 0 .softwareUpdateStart args = some (.vehicleControlScheduleSoftwareUpdate offsetSec) → 0 ≤ offsetSec ∧ offsetSec ≤ 3600 := by
  intro h
  exact absurd (h ["2h"] 7200 (by decide +kernel) (by decide +kernel)).2 (by decide)

end ElectricEel.Numbers
