/-
  ElectricEel.Bluez.Watcher — from signals to results (helper/session/bluez/scan.go
  `observeRSSIUpdates`, `Wait`, `Pause`, `Resume`, `Stop`).

  Signals wait in the watcher's channel, oldest first; one that the bus drops was never
  emitted as far as the watcher goes. The observer takes one and works on it in three
  pieces: the first section (identity, and paused for the first time), the RSSI read, the
  second section. `Wait` delivers in the section that takes `pending`. Each signal is
  numbered when it is emitted, so that a result can be traced to its signal; `resumed` is
  the number of signals emitted when the watcher was last resumed.

  `Resume` of a watcher that is not paused leaves everything as it is. Whether such a call
  counts as a resume is the parameter `every`; the results hold either way.

  Proved: every result delivered stems from an advertisement of a device that was
  identified, is at most five seconds old, is delivered once and not while paused
  (`deliveries_sound`); it stems from a signal emitted after the last resume as long as no
  resume finds an advertisement the observer has still to record (`deliveries_fresh`).
  Without that, one emitted before the pause is delivered after it (`stale_after_resume`).
-/
import ElectricEel.Lib.Runs
import ElectricEel.Bluez.Signals

namespace ElectricEel.Bluez

open Lib

/-! ## The watcher -/

/-- A result, with the number of its signal. -/
structure Advert where
  result : ScanResult
  src : Nat
  deriving DecidableEq, Repr

inductive Observer where
  /-- In the select. -/
  | idle
  /-- Past the first section, on its way to the RSSI. -/
  | checked (src : Nat) (path : Path) (changed : Props)
  /-- Before the second section. -/
  | measured (src : Nat) (path : Path) (rssi : Int)
  | done
  deriving DecidableEq, Repr

/-- What `Wait` returned, and how things stood. -/
structure Delivery where
  advert : Advert
  recordedAt : Nat
  time : Nat
  resumed : Nat
  paused : Bool
  deriving DecidableEq, Repr

/-- What the watcher has gone by so far. -/
structure Seen where
  /-- The first snapshot's device. -/
  seed : Option Path
  observed : List (Nat × Signal) := []
  deriving DecidableEq, Repr

structure Watcher where
  devicePath : Option Path
  paused : Bool := false
  pending : Option Advert := none
  pendingAt : Nat := 0
  stopped : Bool := false
  observer : Observer := .idle
  /-- In the channel, or on the bus. -/
  backlog : List (Nat × Signal) := []
  /-- Milliseconds. -/
  now : Nat := 0
  emitted : Nat := 0
  resumed : Nat := 0
  seen : Seen
  delivered : List Delivery := []
  deriving DecidableEq, Repr

inductive Event where
  | emit (sig : Signal)
  | receive
  /-- `v`: what the RSSI property read gives, should it be made. -/
  | read (v : Option Int)
  | record
  /-- `cancelled`: the context is, after the section. -/
  | wait (cancelled : Bool)
  | pause
  | resume
  | stop
  /-- The channel is closed, or `signalStop`. -/
  | quit
  | tick (ms : Nat)
  deriving DecidableEq, Repr

def Seen.add (seen : Seen) (e : Nat × Signal) : Seen := { seen with observed := e :: seen.observed }

/-- RSSI is there, or `advertisementUpdate`. -/
def Props.heard (changed : Props) : Bool := changed.rssi.isSome || changed.advertisement

namespace Watcher

def emit (s : Watcher) (sig : Signal) : Watcher :=
  { s with emitted := s.emitted + 1, backlog := s.backlog ++ [(s.emitted, sig)] }

variable (adapterPath : Path) (want : String)

def receive (s : Watcher) : Watcher :=
  match s.observer, s.backlog with
  | .idle, (src, sig) :: rest =>
    let s := { s with backlog := rest, seen := s.seen.add (src, sig) }
    match sig.change adapterPath with
    | some (path, changed) =>
      let s := { s with devicePath := identify want s.devicePath path changed }
      if s.devicePath = some path ∧ s.paused = false then { s with observer := .checked src path changed } else s
    | none => s
  | _, _ => s

def read (s : Watcher) (v : Option Int) : Watcher :=
  match s.observer with
  | .checked src path changed =>
    match changed.rssi.or (if changed.advertisement then v else none) with
    | some rssi => { s with observer := .measured src path rssi }
    | none => { s with observer := .idle }
  | _ => s

def record (s : Watcher) : Watcher :=
  match s.observer with
  | .measured src path rssi =>
    if s.paused then { s with observer := .idle }
    else
      { s with
        observer := .idle, pendingAt := s.now
        pending := some { result := { path, localName := want, rssi := some rssi }, src } }
  | _ => s

/-- The result of `Wait`'s section. -/
def taken (s : Watcher) : Option Advert := if s.paused ∨ s.pendingAt + 5000 < s.now then none else s.pending

def deliver (s : Watcher) (advert : Advert) : Delivery :=
  { advert, recordedAt := s.pendingAt, time := s.now, resumed := s.resumed, paused := s.paused }

def wait (s : Watcher) (cancelled : Bool) : Watcher :=
  { s with pending := none, delivered := s.delivered ++ if cancelled then [] else s.taken.toList.map s.deliver }

def pause (s : Watcher) : Watcher := if s.paused then s else { s with paused := true, pending := none }

/-- `every`: a call on a watcher that is not paused counts. -/
def resume (every : Bool) (s : Watcher) : Watcher :=
  { s with
    pending := if s.paused then none else s.pending
    paused := false
    resumed := if s.paused || every then s.emitted else s.resumed }

def stop (s : Watcher) : Watcher := if s.stopped then s else { s with stopped := true, paused := true, pending := none }

def quit (s : Watcher) : Watcher := if s.observer = .idle then { s with observer := .done } else s

def step (every : Bool) (s : Watcher) : Event → Watcher
  | .emit sig => s.emit sig
  | .receive => s.receive adapterPath want
  | .read v => s.read v
  | .record => s.record want
  | .wait cancelled => s.wait cancelled
  | .pause => s.pause
  | .resume => s.resume every
  | .stop => s.stop
  | .quit => s.quit
  | .tick ms => { s with now := s.now + ms }

/-- As `newWatcher` starts the observer: a snapshot has given the path. -/
def start (objects : List (Path × Option Props)) : Watcher :=
  let initial := (findBeacon adapterPath want objects).map (·.path)
  { devicePath := initial, seen := { seed := initial } }

def machine (every : Bool) : Machine Watcher Event :=
  { init := fun s => ∃ objects, s = start adapterPath want objects, step := step adapterPath want every }

end Watcher

/-! ## What a delivery should be -/

namespace Seen

variable (adapterPath : Path) (want : String)

/-- The snapshot, or a signal observed, gave the path the vehicle's name. -/
def Identified (seen : Seen) (path : Path) : Prop :=
  seen.seed = some path ∨
    ∃ src sig changed, (src, sig) ∈ seen.observed ∧ sig.change adapterPath = some (path, changed) ∧ recognised want changed = true

/-- Signal `src` advertises the path. -/
def Advertises (seen : Seen) (src : Nat) (path : Path) : Prop :=
  ∃ sig changed, (src, sig) ∈ seen.observed ∧ sig.change adapterPath = some (path, changed) ∧ changed.heard = true

structure Sound (seen : Seen) (d : Delivery) : Prop where
  advertised : seen.Advertises adapterPath d.advert.src d.advert.result.path
  identified : seen.Identified adapterPath want d.advert.result.path
  recorded : d.recordedAt ≤ d.time
  recent : d.time ≤ d.recordedAt + 5000
  awake : d.paused = false

end Seen

namespace Watcher

variable (adapterPath : Path) (want : String)

/-- Among the signals before number `m` there is one that the observer will take for an
    advertisement of the vehicle. -/
def lives (m : Nat) : Option Path → List (Nat × Signal) → Bool
  | _, [] => false
  | devicePath, (src, sig) :: rest =>
    match sig.change adapterPath with
    | some (path, changed) =>
      (decide (src < m) && (identify want devicePath path changed == some path) && changed.heard) ||
        lives m (identify want devicePath path changed) rest
    | none => lives m devicePath rest

end Watcher

/-- The same of the signal in hand. -/
def Observer.lives (m : Nat) : Observer → Bool
  | checked src _ changed => decide (src < m) && changed.heard
  | measured src _ _ => decide (src < m)
  | _ => false

namespace Watcher

variable (adapterPath : Path) (want : String)

/-- Of the signals before number `m`, one may still become a result. -/
def stale (m : Nat) (s : Watcher) : Bool :=
  s.observer != .done && (s.observer.lives m || lives adapterPath want m s.devicePath s.backlog)

/-- Nothing heard so far will still be delivered. -/
def Settled (s : Watcher) : Prop := (s.paused = true ∨ s.pending = none) ∧ s.stale adapterPath want s.emitted = false

/-- A resume finds the watcher settled. -/
def SettledResumes (every : Bool) (s : Watcher) : Event → Prop
  | .resume => (s.paused || every) = true → s.Settled adapterPath want
  | _ => True

end Watcher

/-! ## Each signal at most once -/

def Observer.srcs : Observer → List Nat
  | checked src _ _ => [src]
  | measured src _ _ => [src]
  | _ => []

namespace Watcher

variable {adapterPath : Path} {want : String}

/-- The signals that became results or may yet, oldest first. -/
def line (s : Watcher) : List Nat :=
  s.delivered.map (·.advert.src) ++ (s.pending.toList.map (·.src) ++ (s.observer.srcs ++ s.backlog.map Prod.fst))

structure Ordered (s : Watcher) : Prop where
  sorted : s.line.Pairwise (· < ·)
  below : ∀ src ∈ s.line, src < s.emitted

theorem Ordered.sublist {s t : Watcher} (h : s.Ordered) (hl : t.line.Sublist s.line) (he : t.emitted = s.emitted) : t.Ordered := by
  refine ⟨h.sorted.sublist hl, ?_⟩
  intro src hm
  rw [he]
  exact h.below src (hl.subset hm)

theorem emit_ordered {s : Watcher} (h : s.Ordered) (sig : Signal) : (s.emit sig).Ordered := by
  have hl : (s.emit sig).line = s.line ++ [s.emitted] := by simp [line, emit]
  refine ⟨?_, ?_⟩
  · rw [hl, List.pairwise_append]
    refine ⟨h.sorted, List.pairwise_singleton _ _, ?_⟩
    intro a ha b hb
    rw [List.mem_singleton.1 hb]
    exact h.below a ha
  · intro src hm
    rw [hl, List.mem_append, List.mem_singleton] at hm
    have he : (s.emit sig).emitted = s.emitted + 1 := rfl
    rcases hm with hm | rfl
    · have := h.below src hm
      omega
    · omega

@[simp] theorem receive_emitted (s : Watcher) : (s.receive adapterPath want).emitted = s.emitted := by
  unfold receive
  split
  · dsimp only
    split
    · split <;> rfl
    · rfl
  · rfl

@[simp] theorem read_emitted (s : Watcher) (v : Option Int) : (s.read v).emitted = s.emitted := by
  unfold read
  split
  · split <;> rfl
  · rfl

@[simp] theorem record_emitted (s : Watcher) : (s.record want).emitted = s.emitted := by
  unfold record
  split
  · split <;> rfl
  · rfl

theorem receive_line (s : Watcher) : (s.receive adapterPath want).line.Sublist s.line := by
  unfold receive
  split
  · next src sig rest ho hb =>
    have hl : s.line = s.delivered.map (·.advert.src) ++ (s.pending.toList.map (·.src) ++ (src :: rest.map Prod.fst)) := by
      simp [line, ho, hb, Observer.srcs]
    rw [hl]
    dsimp only
    split
    · split
      · exact .refl _
      · simp only [line, ho, Observer.srcs, List.nil_append]
        exact .append_left (.append_left (List.sublist_cons_self _ _) _) _
    · simp only [line, ho, Observer.srcs, List.nil_append]
      exact .append_left (.append_left (List.sublist_cons_self _ _) _) _
  · exact .refl _

theorem read_line (s : Watcher) (v : Option Int) : (s.read v).line.Sublist s.line := by
  unfold read
  split
  · next src path changed ho =>
    split
    · simp [line, ho, Observer.srcs]
    · simp only [line, ho, Observer.srcs, List.nil_append]
      exact .append_left (.append_left (List.sublist_append_right _ _) _) _
  · exact .refl _

theorem record_line (s : Watcher) : (s.record want).line.Sublist s.line := by
  unfold record
  split
  · next src path rssi ho =>
    split
    · simp only [line, ho, Observer.srcs, List.nil_append]
      exact .append_left (.append_left (List.sublist_append_right _ _) _) _
    · -- the new result takes the place of the one waiting
      simp only [line, ho, Observer.srcs, List.nil_append]
      exact .append_left (List.sublist_append_right _ _) _
  · exact .refl _

theorem wait_line (s : Watcher) (cancelled : Bool) : (s.wait cancelled).line.Sublist s.line := by
  have hd : ((if cancelled then [] else s.taken.toList.map s.deliver).map (·.advert.src)).Sublist (s.pending.toList.map (·.src)) := by
    by_cases hc : cancelled = true
    · simp [hc]
    · unfold taken
      by_cases ht : s.paused ∨ s.pendingAt + 5000 < s.now
      · simp [hc, ht]
      · simp [hc, ht, deliver, Function.comp_def]
  simp only [line, wait, List.map_append, Option.toList_none, List.map_nil, List.nil_append, List.append_assoc]
  exact .append_left (.append_right hd _) _

theorem drop_line (s : Watcher) : ({ s with pending := none } : Watcher).line.Sublist s.line := by
  simp only [line, Option.toList_none, List.map_nil, List.nil_append]
  exact .append_left (List.sublist_append_right _ _) _

theorem step_ordered {every : Bool} {s : Watcher} (h : s.Ordered) (e : Event) : (s.step adapterPath want every e).Ordered := by
  cases e with
  | emit sig => exact emit_ordered h sig
  | receive => exact h.sublist (receive_line s) (receive_emitted s)
  | read v => exact h.sublist (read_line s v) (read_emitted s v)
  | record => exact h.sublist (record_line s) (record_emitted s)
  | wait cancelled => exact h.sublist (wait_line s cancelled) rfl
  | pause =>
    simp only [step, pause]
    split
    · exact h
    · exact h.sublist (drop_line s) rfl
  | resume =>
    by_cases hp : s.paused = true
    · refine h.sublist ?_ rfl
      simp [step, resume, line, hp]
    · refine h.sublist ?_ rfl
      simp [step, resume, line, hp]
  | stop =>
    simp only [step, stop]
    split
    · exact h
    · exact h.sublist (drop_line s) rfl
  | quit =>
    simp only [step, quit]
    split
    · next ho => exact h.sublist (by simp [line, ho, Observer.srcs]) rfl
    · exact h
  | tick ms => exact h.sublist (.refl _) rfl

/-! ## Where a result comes from -/

end Watcher

namespace Seen

variable {adapterPath : Path} {want : String} {seen : Seen}

theorem Identified.add {path : Path} (h : seen.Identified adapterPath want path) (e : Nat × Signal) :
    (seen.add e).Identified adapterPath want path := by
  rcases h with h | ⟨src, sig, changed, hm, hc⟩
  · exact .inl h
  · exact .inr ⟨src, sig, changed, List.mem_cons_of_mem _ hm, hc⟩

theorem Advertises.add {src : Nat} {path : Path} (h : seen.Advertises adapterPath src path) (e : Nat × Signal) :
    (seen.add e).Advertises adapterPath src path := by
  obtain ⟨sig, changed, hm, hc⟩ := h
  exact ⟨sig, changed, List.mem_cons_of_mem _ hm, hc⟩

theorem Sound.add {d : Delivery} (h : seen.Sound adapterPath want d) (e : Nat × Signal) :
    (seen.add e).Sound adapterPath want d :=
  { h with advertised := h.advertised.add e, identified := h.identified.add e }

/-- The identity section identifies what it holds. -/
theorem identified_identify {devicePath : Option Path} (h : ∀ p, devicePath = some p → seen.Identified adapterPath want p)
    {src : Nat} {sig : Signal} {path : Path} {changed : Props} (hc : sig.change adapterPath = some (path, changed)) (p : Path)
    (hp : identify want devicePath path changed = some p) : (seen.add (src, sig)).Identified adapterPath want p := by
  by_cases hpath : p = path
  · subst hpath
    rcases (identify_eq_some devicePath changed).1 hp with hr | ⟨_, hd⟩
    · exact .inr ⟨src, sig, changed, List.mem_cons_self, hc, hr⟩
    · exact (h p hd).add _
  · -- another path stays as it was
    have hd : devicePath = some p := by
      unfold identify at hp
      split at hp
      · split at hp
        · exact (hpath (Option.some.inj hp).symm).elim
        · split at hp
          · cases hp
          · exact hp
      · exact hp
    exact (h p hd).add _

end Seen

/-- The signal in hand is of a device identified. -/
def Observer.Traced (adapterPath : Path) (want : String) (seen : Seen) : Observer → Prop
  | checked src path changed =>
    (∃ sig, (src, sig) ∈ seen.observed ∧ sig.change adapterPath = some (path, changed)) ∧ seen.Identified adapterPath want path
  | measured src path _ => seen.Advertises adapterPath src path ∧ seen.Identified adapterPath want path
  | _ => True

namespace Watcher

variable {adapterPath : Path} {want : String}

structure Traced (adapterPath : Path) (want : String) (s : Watcher) : Prop where
  held : ∀ path, s.devicePath = some path → s.seen.Identified adapterPath want path
  inHand : s.observer.Traced adapterPath want s.seen
  waiting : ∀ a ∈ s.pending, s.seen.Advertises adapterPath a.src a.result.path ∧ s.seen.Identified adapterPath want a.result.path
  clock : s.pendingAt ≤ s.now
  sound : ∀ d ∈ s.delivered, s.seen.Sound adapterPath want d

/-- The observer drops what it has in hand. -/
theorem Traced.observer {s : Watcher} (h : s.Traced adapterPath want) {o : Observer} (ho : o = .idle ∨ o = .done) :
    ({ s with observer := o } : Watcher).Traced adapterPath want := by
  refine { h with inHand := ?_ }
  rcases ho with rfl | rfl
  · trivial
  · trivial

theorem Traced.drop {s : Watcher} (h : s.Traced adapterPath want) : ({ s with pending := none } : Watcher).Traced adapterPath want := by
  refine { h with waiting := ?_ }
  intro a ha
  cases ha

theorem receive_traced {s : Watcher} (h : s.Traced adapterPath want) : (s.receive adapterPath want).Traced adapterPath want := by
  unfold receive
  split
  · next src sig rest ho hb =>
    have hw : ∀ a ∈ s.pending, (s.seen.add (src, sig)).Advertises adapterPath a.src a.result.path ∧
        (s.seen.add (src, sig)).Identified adapterPath want a.result.path :=
      fun a ha => ⟨(h.waiting a ha).1.add _, (h.waiting a ha).2.add _⟩
    have hd : ∀ d ∈ s.delivered, (s.seen.add (src, sig)).Sound adapterPath want d := fun d hm => (h.sound d hm).add _
    have hidle : s.observer.Traced adapterPath want (s.seen.add (src, sig)) := by
      rw [ho]
      trivial
    dsimp only
    split
    · next path changed hc =>
      have hid : ∀ p, identify want s.devicePath path changed = some p → (s.seen.add (src, sig)).Identified adapterPath want p :=
        Seen.identified_identify h.held hc
      split
      · next htarget => exact ⟨hid, ⟨⟨sig, List.mem_cons_self, hc⟩, hid path htarget.1⟩, hw, h.clock, hd⟩
      · exact ⟨hid, hidle, hw, h.clock, hd⟩
    · exact ⟨fun p hp => (h.held p hp).add _, hidle, hw, h.clock, hd⟩
  · exact h

/-- A signal without RSSI gets one only from the read. -/
theorem heard_of_rssi {changed : Props} {v : Option Int} {rssi : Int}
    (h : changed.rssi.or (if changed.advertisement then v else none) = some rssi) : changed.heard = true := by
  by_cases ha : changed.advertisement = true
  · simp [Props.heard, ha]
  · rw [if_neg ha, Option.or_none] at h
    simp [Props.heard, h]

theorem read_traced {s : Watcher} (h : s.Traced adapterPath want) (v : Option Int) : (s.read v).Traced adapterPath want := by
  unfold read
  split
  · next src path changed ho =>
    have hin := h.inHand
    rw [ho] at hin
    obtain ⟨⟨sig, hm, hc⟩, hi⟩ := hin
    split
    · next rssi hr =>
      exact { h with inHand := ⟨⟨sig, changed, hm, hc, heard_of_rssi hr⟩, hi⟩ }
    · exact h.observer (.inl rfl)
  · exact h

theorem record_traced {s : Watcher} (h : s.Traced adapterPath want) : (s.record want).Traced adapterPath want := by
  unfold record
  split
  · next src path rssi ho =>
    have hin := h.inHand
    rw [ho] at hin
    split
    · exact h.observer (.inl rfl)
    · refine { h with inHand := trivial, waiting := ?_, clock := Nat.le_refl _ }
      intro a ha
      cases ha
      exact hin
  · exact h

theorem taken_eq_some {s : Watcher} {a : Advert} (h : s.taken = some a) :
    s.pending = some a ∧ s.paused = false ∧ s.now ≤ s.pendingAt + 5000 := by
  unfold taken at h
  by_cases hc : s.paused = true ∨ s.pendingAt + 5000 < s.now
  · rw [if_pos hc] at h
    cases h
  · rw [if_neg hc] at h
    rw [not_or, Bool.not_eq_true] at hc
    exact ⟨h, hc.1, by omega⟩

theorem mem_wait {s : Watcher} {cancelled : Bool} {d : Delivery} (h : d ∈ (s.wait cancelled).delivered) :
    d ∈ s.delivered ∨ ∃ a, s.taken = some a ∧ d = s.deliver a := by
  simp only [wait, List.mem_append] at h
  rcases h with h | h
  · exact .inl h
  · by_cases hc : cancelled = true
    · simp [hc] at h
    · rw [if_neg hc, List.mem_map] at h
      obtain ⟨a, ha, rfl⟩ := h
      exact .inr ⟨a, Option.mem_toList.1 ha, rfl⟩

theorem wait_traced {s : Watcher} (h : s.Traced adapterPath want) (cancelled : Bool) : (s.wait cancelled).Traced adapterPath want := by
  refine { h.drop with sound := ?_ }
  intro d hd
  rcases mem_wait hd with hd | ⟨a, ha, rfl⟩
  · exact h.sound d hd
  · obtain ⟨hp, hq, hr⟩ := taken_eq_some ha
    have hw := h.waiting a hp
    exact ⟨hw.1, hw.2, h.clock, hr, hq⟩

theorem step_traced {every : Bool} {s : Watcher} (h : s.Traced adapterPath want) (e : Event) :
    (s.step adapterPath want every e).Traced adapterPath want := by
  cases e with
  | emit sig => exact { h with }
  | receive => exact receive_traced h
  | read v => exact read_traced h v
  | record => exact record_traced h
  | wait cancelled => exact wait_traced h cancelled
  | pause =>
    simp only [step, pause]
    split
    · exact h
    · exact { h.drop with }
  | resume =>
    by_cases hp : s.paused = true
    · simp only [step, resume, if_pos hp]
      exact { h.drop with }
    · simp only [step, resume, if_neg hp]
      exact { h with }
  | stop =>
    simp only [step, stop]
    split
    · exact h
    · exact { h.drop with }
  | quit =>
    simp only [step, quit]
    split
    · exact h.observer (.inr rfl)
    · exact h
  | tick ms => exact { h with clock := Nat.le_trans h.clock (Nat.le_add_right _ _) }

/-! ## Nothing from before the resume -/

structure Fresh (adapterPath : Path) (want : String) (s : Watcher) : Prop where
  numbered : s.resumed ≤ s.emitted
  settled : s.stale adapterPath want s.resumed = false
  waiting : ∀ a ∈ s.pending, s.resumed ≤ a.src
  delivered : ∀ d ∈ s.delivered, d.resumed ≤ d.advert.src

theorem lives_emit {m n : Nat} (h : m ≤ n) (sig : Signal) (devicePath : Option Path) (backlog : List (Nat × Signal)) :
    lives adapterPath want m devicePath (backlog ++ [(n, sig)]) = lives adapterPath want m devicePath backlog := by
  induction backlog generalizing devicePath with
  | nil =>
    have hn : ¬ n < m := by omega
    simp only [List.nil_append, lives, hn, decide_false, Bool.false_and, Bool.or_self]
    split <;> rfl
  | cons e rest ih =>
    obtain ⟨src, old⟩ := e
    simp only [List.cons_append, lives, ih]

theorem emit_fresh {s : Watcher} (h : s.Fresh adapterPath want) (sig : Signal) : (s.emit sig).Fresh adapterPath want := by
  have hn := h.numbered
  refine ⟨Nat.le_succ_of_le hn, ?_, h.waiting, h.delivered⟩
  have hs := h.settled
  simp only [stale, emit, lives_emit hn] at hs ⊢
  exact hs

/-- Only a new advertisement passes the first section. -/
theorem receive_settled {s : Watcher} {m : Nat} (h : s.stale adapterPath want m = false) :
    (s.receive adapterPath want).stale adapterPath want m = false := by
  unfold receive
  split
  · next src sig rest ho hb =>
    simp only [stale, ho, hb, Observer.lives, lives, Bool.false_or] at h
    dsimp only
    cases hc : sig.change adapterPath with
    | none => simpa only [stale, ho, Observer.lives, Bool.false_or, hc] using h
    | some c =>
      obtain ⟨path, changed⟩ := c
      simp only [hc] at h
      have hne : (Observer.idle != .done) = true := rfl
      rw [hne, Bool.true_and, Bool.or_eq_false_iff] at h
      dsimp only
      split
      · next htarget =>
        simp only [stale, Observer.lives, h.2, Bool.or_false]
        simpa [htarget.1] using h.1
      · simp only [stale, ho, Observer.lives, h.2, Bool.or_self, Bool.and_false]
  · exact h

theorem read_settled {s : Watcher} {m : Nat} (h : s.stale adapterPath want m = false) (v : Option Int) :
    (s.read v).stale adapterPath want m = false := by
  unfold read
  split
  · next src path changed ho =>
    have hne : (Observer.checked src path changed != .done) = true := rfl
    rw [stale, ho, hne, Bool.true_and, Bool.or_eq_false_iff] at h
    split
    · next rssi hr =>
      have hold : decide (src < m) = false := by simpa [Observer.lives, heard_of_rssi hr] using h.1
      simp only [stale, Observer.lives, hold, h.2, Bool.or_self, Bool.and_false]
    · simp only [stale, Observer.lives, h.2, Bool.or_self, Bool.and_false]
  · exact h

/-- What the observer has measured was emitted since. -/
theorem settled_measured {s : Watcher} {m : Nat} (h : s.stale adapterPath want m = false) {src : Nat} {path : Path} {rssi : Int}
    (ho : s.observer = .measured src path rssi) : m ≤ src ∧ ({ s with observer := .idle } : Watcher).stale adapterPath want m = false := by
  have hne : (Observer.measured src path rssi != .done) = true := rfl
  rw [stale, ho, hne, Bool.true_and, Bool.or_eq_false_iff] at h
  refine ⟨?_, ?_⟩
  · have := h.1
    simp only [Observer.lives, decide_eq_false_iff_not] at this
    omega
  · simp only [stale, Observer.lives, h.2, Bool.or_self, Bool.and_false]

theorem record_fresh {s : Watcher} (h : s.Fresh adapterPath want) : (s.record want).Fresh adapterPath want := by
  unfold record
  split
  · next src path rssi ho =>
    obtain ⟨hm, hidle⟩ := settled_measured h.settled ho
    split
    · exact { h with settled := hidle }
    · refine { h with settled := hidle, waiting := ?_ }
      intro a ha
      cases ha
      exact hm
  · exact h

theorem wait_fresh {s : Watcher} (h : s.Fresh adapterPath want) (cancelled : Bool) : (s.wait cancelled).Fresh adapterPath want := by
  refine { h with waiting := ?_, delivered := ?_ }
  · intro a ha
    cases ha
  · intro d hd
    rcases mem_wait hd with hd | ⟨a, ha, rfl⟩
    · exact h.delivered d hd
    · exact h.waiting a (taken_eq_some ha).1

theorem Fresh.drop {s : Watcher} (h : s.Fresh adapterPath want) : ({ s with pending := none } : Watcher).Fresh adapterPath want := by
  refine { h with waiting := ?_ }
  intro a ha
  cases ha

theorem resume_fresh {every : Bool} {s : Watcher} (h : s.Fresh adapterPath want) (hs : s.SettledResumes adapterPath want every .resume) :
    (s.resume every).Fresh adapterPath want := by
  unfold resume
  by_cases hc : (s.paused || every) = true
  · obtain ⟨hp, hst⟩ := hs hc
    have hnone : (if s.paused = true then none else s.pending) = none := by
      by_cases hq : s.paused = true
      · rw [if_pos hq]
      · rw [if_neg hq]
        exact hp.resolve_left hq
    rw [hnone, if_pos hc]
    refine ⟨Nat.le_refl _, hst, ?_, h.delivered⟩
    intro a ha
    cases ha
  · rw [if_neg hc]
    rw [Bool.or_eq_true, not_or] at hc
    rw [if_neg hc.1]
    exact { h with }

theorem receive_fresh {s : Watcher} (h : s.Fresh adapterPath want) : (s.receive adapterPath want).Fresh adapterPath want := by
  have hs := receive_settled h.settled
  revert hs
  unfold receive
  split
  · dsimp only
    split
    · split
      · exact fun hs => { h with settled := hs }
      · exact fun hs => { h with settled := hs }
    · exact fun hs => { h with settled := hs }
  · exact fun _ => h

theorem read_fresh {s : Watcher} (h : s.Fresh adapterPath want) (v : Option Int) : (s.read v).Fresh adapterPath want := by
  have hs := read_settled h.settled v
  revert hs
  unfold read
  split
  · split
    · exact fun hs => { h with settled := hs }
    · exact fun hs => { h with settled := hs }
  · exact fun _ => h

theorem step_fresh {every : Bool} {s : Watcher} (h : s.Fresh adapterPath want) {e : Event}
    (hs : s.SettledResumes adapterPath want every e) : (s.step adapterPath want every e).Fresh adapterPath want := by
  cases e with
  | emit sig => exact emit_fresh h sig
  | receive => exact receive_fresh h
  | read v => exact read_fresh h v
  | record => exact record_fresh h
  | wait cancelled => exact wait_fresh h cancelled
  | pause =>
    simp only [step, pause]
    split
    · exact h
    · exact { h.drop with }
  | resume => exact resume_fresh h hs
  | stop =>
    simp only [step, stop]
    split
    · exact h
    · exact { h.drop with }
  | quit =>
    simp only [step, quit]
    split
    · exact { h with settled := rfl }
    · exact h
  | tick ms => exact { h with }

/-! ## All runs -/

variable {every : Bool} {s : Watcher}

theorem reach_ordered {ok : Watcher → Event → Prop} (h : (machine adapterPath want every).Reach ok s) : s.Ordered := by
  refine h.inv (I := Ordered) ?_ ?_
  · rintro s ⟨objects, rfl⟩
    exact ⟨.nil, fun src hm => nomatch hm⟩
  · intro s e hi _
    exact step_ordered hi e

theorem reach_traced {ok : Watcher → Event → Prop} (h : (machine adapterPath want every).Reach ok s) : s.Traced adapterPath want := by
  refine h.inv (I := Traced adapterPath want) ?_ ?_
  · rintro s ⟨objects, rfl⟩
    refine ⟨fun path hp => .inl hp, trivial, ?_, Nat.le_refl _, ?_⟩
    · intro a ha
      cases ha
    · intro d hd
      cases hd
  · intro s e hi _
    exact step_traced hi e

/-- With no more than the code's own checks. -/
theorem deliveries_sound {ok : Watcher → Event → Prop} (h : (machine adapterPath want every).Reach ok s) :
    (∀ d ∈ s.delivered, s.seen.Sound adapterPath want d) ∧ (s.delivered.map (·.advert.src)).Nodup := by
  refine ⟨(reach_traced h).sound, ?_⟩
  have ho := ((reach_ordered h).sorted.sublist (List.sublist_append_left _ _))
  exact ho.imp Nat.ne_of_lt

theorem deliveries_fresh (h : (machine adapterPath want every).Reach (SettledResumes adapterPath want every) s) :
    (∀ d ∈ s.delivered, s.seen.Sound adapterPath want d ∧ d.resumed ≤ d.advert.src) ∧ (s.delivered.map (·.advert.src)).Nodup := by
  have hf : s.Fresh adapterPath want := by
    refine h.inv (I := Fresh adapterPath want) ?_ ?_
    · rintro s ⟨objects, rfl⟩
      refine ⟨Nat.le_refl _, rfl, ?_, ?_⟩
      · intro a ha
        cases ha
      · intro d hd
        cases hd
    · intro s e hi hok
      exact step_fresh hi hok
  obtain ⟨hs, hn⟩ := deliveries_sound h
  exact ⟨fun d hd => ⟨hs d hd, hf.delivered d hd⟩, hn⟩

/-- One advertisement of the car, all the way to the caller. -/
def heardOnce (rssi : Int) : List Event :=
  [.emit (.propertiesChanged car .device { rssi := some rssi }), .receive, .read none, .record, .wait false]

theorem deliveries_fresh_around_a_pause :
    let s := (machine hci0 beaconName false).run (start hci0 beaconName [(car, some { name := some beaconName })])
      (heardOnce (-49) ++ [.pause, .resume] ++ heardOnce (-51))
    s.delivered.map (·.advert.src) = [0, 1] ∧ (∀ d ∈ s.delivered, s.seen.Sound hci0 beaconName d ∧ d.resumed ≤ d.advert.src) ∧
      (s.delivered.map (·.advert.src)).Nodup := by
  have hr : (machine hci0 beaconName false).Reach (SettledResumes hci0 beaconName false)
      (start hci0 beaconName [(car, some { name := some beaconName })]) := .init ⟨_, rfl⟩
  refine ⟨by decide, deliveries_fresh (hr.run _ ?_)⟩
  exact ⟨trivial, trivial, trivial, trivial, trivial, trivial, fun _ => ⟨.inl rfl, by decide⟩, trivial, trivial, trivial, trivial, trivial,
    trivial⟩

/-- The observer gets to the advertisement only after the pause. -/
def heardLate : List Event :=
  [.emit (.propertiesChanged car .device { rssi := some (-49) }), .pause, .resume, .receive, .read none, .record, .wait false]

theorem stale_after_resume :
    let s := (machine hci0 beaconName false).run (start hci0 beaconName [(car, some { name := some beaconName })]) heardLate
    s.delivered.map (fun d => (d.advert.src, d.resumed)) = [(0, 1)] := by
  decide

end Watcher

end ElectricEel.Bluez
