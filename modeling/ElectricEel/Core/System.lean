/-
  ElectricEel.Core.System — the core's operations interleaved (helper/src/core.rs,
  docs/architecture.md).

  A call begins, waits for `phone_key_gate`, runs a section, and may release the gate and
  go on: pair, set_config and handle_resume with the section of start_phone_key, a poll
  with its reads, its section under the gate and the section of start_phone_key. A section
  is atomic for the other calls, not for the children, their readers and the world, whose
  moves stand in the section's environment. Between sections anything may happen.

  A core is dropped when no call is in progress, and a new one is built from the disk.

  Proved: whatever the calls do, the session client and what lies outside the process are
  in a state the client's own machine reaches (`host_reached`), so what holds of every
  run of the client holds here; when no child forges a response, one its honest runs
  reach (`honest_host`).
-/
import ElectricEel.Core.Ops

namespace ElectricEel.Control

open Lib Commands Wire Config Client

/-! ## Calls -/

inductive CoreCall where
  | run (cmd : Cmd) (args : List String)
  | generateKey (force : Bool)
  | pair
  | startPhoneKey
  | stopPhoneKey
  | handleResume
  | setConfig (r : Core.ConfigRequest)
  | shareDestination (text : String)
  deriving DecidableEq, Repr

/-- Where a call stands. -/
inductive Pending where
  | begun (op : CoreCall)
  /-- The gate is released; the section of start_phone_key is next. -/
  | starting
  | popped (x : Option Entry)
  | judged (x : Option Entry) (due : Bool)
  /-- A poll with a presence_stopped event, before its section under the gate. -/
  | stopped (x : Entry)
  | restarting (x : Entry)
  deriving DecidableEq, Repr

/-- The next section of a call, and where the call stands after it. -/
def advance (K : Checks) (c : Core) (e : SectionEnv) : Pending → Core × Option Pending
  | .begun (.run cmd args) => ((c.run K cmd args e).1, none)
  | .begun (.generateKey force) => ((c.generateKey force e).1, none)
  | .begun .pair =>
    match c.pairSection e with
    | (c, .done _) => (c, none)
    | (c, .confirmed _) => (c, some .starting)
  | .begun .startPhoneKey => ((c.startPhoneKey e.start).1, none)
  | .begun .stopPhoneKey => (c.stopPhoneKeyLocked e.stop, none)
  | .begun .handleResume => (c.handleResumeSection e, some .starting)
  | .begun (.setConfig r) =>
    match c.setConfigSection r e with
    | (c, .ok true) => (c, some .starting)
    | (c, _) => (c, none)
  | .begun (.shareDestination text) => ((c.shareDestination K text e).1, none)
  | .starting => ((c.startPhoneKey e.start).1, none)
  | .popped x => (c, some (.judged x c.retryDue))
  | .judged x due =>
    match c.polledEvent x due with
    | none => (c, none)
    | some y => (c, if y.ev.kind = .presenceStopped then some (.stopped y) else none)
  | .stopped x =>
    match c.pollGate e.invalidating with
    | (c, false) => (c, none)
    | (c, true) => (c, some (.restarting x))
  | .restarting _ => ((c.restart e.start).1, none)

@[simp] theorem advance_pair (K : Checks) (c : Core) (e : SectionEnv) :
    (advance K c e (.begun .pair)).1 = (c.pairSection e).1 := by
  unfold advance
  dsimp only
  split <;> rename_i heq <;> rw [heq]

@[simp] theorem advance_setConfig (K : Checks) (c : Core) (e : SectionEnv) (r : Core.ConfigRequest) :
    (advance K c e (.begun (.setConfig r))).1 = (c.setConfigSection r e).1 := by
  unfold advance
  dsimp only
  split <;> rename_i heq <;> rw [heq]

@[simp] theorem advance_judged (K : Checks) (c : Core) (e : SectionEnv) (x : Option Entry) (due : Bool) :
    (advance K c e (.judged x due)).1 = c := by
  unfold advance
  dsimp only
  split <;> rfl

@[simp] theorem advance_stopped (K : Checks) (c : Core) (e : SectionEnv) (x : Entry) :
    (advance K c e (.stopped x)).1 = (c.pollGate e.invalidating).1 := by
  unfold advance
  dsimp only
  split <;> rename_i heq <;> rw [heq]

/-! ## The machine -/

structure System where
  core : Core
  /-- There is a core. -/
  up : Bool
  calls : List Pending

inductive Event where
  | move (m : Move)
  | call (op : CoreCall)
  /-- A poll begins: it pops. -/
  | poll
  /-- The i-th call in progress takes its next section. -/
  | advance (i : Nat) (e : SectionEnv)
  | drop (e : SectionEnv)
  | new (backend : Option Backend) (unreadable : Bool) (fault : Option FsStep)

namespace System

/-- Before the first core is built. -/
def start (w : World) : System :=
  { core :=
      { cfg := default, session := false, host := ⟨.new .hci, w⟩, phoneKeyStarted := false, phoneKeyEnabled := false,
        phoneKeyRetryAt := none, oneShots := [], restarts := [] }
    up := false
    calls := [] }

def world (y : System) : World := y.core.host.world

def step (K : Checks) (y : System) : Event → System
  | .move m => { y with core := y.core.moves [m] }
  | .call op => if y.up then { y with calls := y.calls ++ [.begun op] } else y
  | .poll => if y.up then { y with core := y.core.pollEvent.1, calls := y.calls ++ [.popped y.core.pollEvent.2] } else y
  | .advance i e =>
    match y.calls[i]? with
    | none => y
    | some p =>
      let r := advance K y.core e p
      { y with core := r.1, calls := y.calls.eraseIdx i ++ r.2.toList }
  | .drop e => if y.up && y.calls.isEmpty then { y with core := y.core.drop e, up := false } else y
  | .new backend unreadable fault =>
    if y.up then y
    else
      match Core.new K.builds y.world backend unreadable fault with
      | (w, .error _) => { y with core := y.core.setWorld w }
      | (_, .ok c) => { y with core := c, up := true }

end System

def systems (K : Checks) : Machine System Event := { init := fun y => ∃ w, y = .start w, step := System.step K }

/-! ## The client under the core -/

/-- All moves of an event are of kind `P`. -/
def Event.Moves (P : Move → Prop) : Event → Prop
  | .move m => P m
  | .advance _ e | .drop e => e.Moves P
  | _ => True

open ElectricEel.Control.Core in
theorem advance_path (K : Checks) {S : Scope} (c : Core) {e : SectionEnv} (h : e.Moves S.moves)
    (hq : ∀ cmd args, c.session = true → S.calls (c.call cmd args)) (hw : S.Writes) (p : Pending) : S.Path c.host (advance K c e p).1.host := by
  unfold advance
  split
  · exact run_path K c h fun _ => hq _ _
  · exact generateKey_path c _ h (fun cmd args _ => hq cmd args) hw
  · have hp := pairSection_path c h (fun cmd args _ => hq cmd args) hw
    split
    · rename_i heq
      rwa [heq] at hp
    · rename_i heq
      rwa [heq] at hp
  · exact startPhoneKey_path c h.start (hq _ _)
  · exact stopPhoneKeyLocked_path c h.stop (hq _ _)
  · exact handleResumeSection_path c h
  · rename_i r
    have hp := setConfigSection_path c r h (hq _ _) hw
    split
    · rename_i heq
      rwa [heq] at hp
    · rename_i heq
      rwa [heq] at hp
  · exact shareDestination_path K c _ h (hq _)
  · exact startPhoneKey_path c h.start (hq _ _)
  · exact .refl
  · split <;> exact .refl
  · have hp := pollGate_path c h.invalidating
    split
    · rename_i heq
      rwa [heq] at hp
    · rename_i heq
      rwa [heq] at hp
  · exact restart_path c h.start (hq _ _)

/-- A step's path, from those of a section and of a drop; or a new client. -/
theorem System.step_path_of (K : Checks) {S : Scope} (y : System) {ev : Event} (hm : ∀ m, ev = .move m → S.moves m)
    (ha : ∀ i e p, ev = .advance i e → y.calls[i]? = some p → S.Path y.core.host (advance K y.core e p).1.host)
    (hd : ∀ e, ev = .drop e → y.up = true → S.Path y.core.host (y.core.drop e).host) :
    S.Path y.core.host (y.step K ev).core.host ∨ (y.step K ev).core.host.Fresh := by
  cases ev with
  | move m => exact .inl (Machine.Path.one (M := hosts) (e := .move m) (hm m rfl))
  | call op =>
    refine .inl ?_
    unfold System.step
    dsimp only
    split <;> exact .refl
  | poll =>
    refine .inl ?_
    unfold System.step
    dsimp only
    split
    · exact Core.pollEvent_path _
    · exact .refl
  | advance i e =>
    refine .inl ?_
    unfold System.step
    dsimp only
    split
    · exact .refl
    · rename_i p hp
      exact ha i e p rfl hp
  | drop e =>
    refine .inl ?_
    unfold System.step
    dsimp only
    split
    · rename_i hg
      exact hd e rfl (Bool.and_eq_true_iff.1 hg).1
    · exact .refl
  | new backend unreadable fault =>
    unfold System.step
    dsimp only
    split
    · exact .inl .refl
    · split
      · rename_i heq
        unfold Core.new at heq
        split at heq
        · cases heq
          exact .inl .refl
        · cases heq
      · rename_i heq
        unfold Core.new at heq
        split at heq
        · cases heq
        · cases heq
          exact .inr ⟨_, rfl⟩

/-- A step works on the client with its own operations, or starts a new one. -/
theorem System.step_path (K : Checks) {S : Scope} (y : System) {ev : Event} (h : ev.Moves S.moves)
    (hq : ∀ cmd args, y.core.session = true → S.calls (y.core.call cmd args)) (hw : S.Writes) :
    S.Path y.core.host (y.step K ev).core.host ∨ (y.step K ev).core.host.Fresh := by
  refine y.step_path_of K ?_ ?_ ?_
  · rintro m rfl
    exact h
  · rintro i e p rfl _
    exact advance_path K _ h hq hw p
  · rintro e rfl _
    exact Core.drop_path _ h (hq _ _)

/-- The same, within any calls and writes. -/
theorem System.step_moves (K : Checks) {P : Move → Prop} (y : System) {ev : Event} (h : ev.Moves P) :
    HostPath P y.core.host (y.step K ev).core.host ∨ (y.step K ev).core.host.Fresh :=
  y.step_path K h (fun _ _ _ => trivial) (Scope.any_writes P)

/-- No child forges a response. -/
def System.Honest (y : System) (ev : Event) : Prop := ev.Moves (Move.Honest y.core.host.client.nextId)

theorem honestRun_path {s t : Host} (h : HonestRun s) (p : HostPath (Move.Honest s.client.nextId) s t) : HonestRun t := by
  have hp : Grown s t ∧ HonestRun t := by
    refine p.inv (I := fun t => Grown s t ∧ HonestRun t) (fun u op hop hu => ?_) ⟨.refl s, h⟩
    have hop' : op.Honest u.client.nextId := by
      cases op with
      | run c e => exact ⟨fun m hm => Move.Honest.mono (hop.2.before m hm) hu.1.nextId,
        fun m hm => Move.Honest.mono (hop.2.waiting m hm) hu.1.nextId⟩
      | move m => exact Move.Honest.mono hop hu.1.nextId
      | _ => trivial
    exact ⟨hu.1.trans (.step u op), .step op hu.2 hop'⟩
  exact hp.2

theorem honest_host {K : Checks} {y : System} (h : (systems K).Reach System.Honest y) : HonestRun y.core.host := by
  refine h.inv (I := fun y => HonestRun y.core.host) ?_ fun y ev hy hok => ?_
  · rintro y ⟨w, rfl⟩
    exact .init ⟨.hci, rfl⟩
  · rcases System.step_moves K y hok with hp | hf
    · exact honestRun_path hy hp
    · exact .init hf

theorem Event.any (ev : Event) : ev.Moves fun _ => True := by
  cases ev with
  | advance i e => exact e.any
  | drop e => exact e.any
  | _ => trivial

/-- The client under a core is in a state its own machine reaches. -/
theorem host_reached {K : Checks} {ok : System → Event → Prop} {y : System} (h : (systems K).Reach ok y) : AnyRun y.core.host := by
  refine h.inv (I := fun y => AnyRun y.core.host) ?_ fun y ev hy _ => ?_
  · rintro y ⟨w, rfl⟩
    exact .init ⟨.hci, rfl⟩
  · rcases System.step_moves K y ev.any with hp | hf
    · exact Machine.Reach.path hy (Machine.Path.weaken (fun _ _ _ => trivial) hp)
    · exact .init hf

/-! ## An installation -/

def pairedConfig : Config :=
  { Config.default with vin := "5YJ3E1EA7KF000000", model := "model3", vinState := .paired }

/-- A paired installation, as it is after a reboot. -/
def pairedWorld : World :=
  { disk := { config := some (encode pairedConfig), priv := some (.key 1), pub := some (.pem 1) }
    whitelist := [(pairedConfig.vin, 1)], now := 0, confirmed := [] }

/-- Checks that let everything through, and serde_json's tree reader. -/
def anyArgs : Checks where
  validateArgRanges _ _ := .ok ()
  parseSharedText text := .ok (.address text)
  builds := Json.builds 128

/-- The child reads the request and answers it. -/
def answered : RunEnv := { waiting := [.serve {}, .read] }

def startAnswered : SectionEnv := { start := { run := answered } }

/-- The child's end of the socket is gone; its reader reports. -/
def childDies : List Event := [.move .hangup, .move .markDead, .move .checkCancelled, .move .report]

theorem answered_honest (n : Nat) : answered.Moves (Move.Honest n) := by
  refine ⟨fun _ => nofun, fun _ => nofun, fun m hm => ?_, fun _ => nofun⟩
  simp only [answered, List.mem_cons, List.not_mem_nil, or_false] at hm
  rcases hm with rfl | rfl <;> trivial

/-- A section in which nothing moves but during its own request. -/
theorem runOnly_moves {P : Move → Prop} {e : RunEnv} (h : e.Moves P) : ({ run := e } : SectionEnv).Moves P := by
  have hr : ({} : RunEnv).Moves P := ⟨fun _ => nofun, fun _ => nofun, fun _ => nofun, fun _ => nofun⟩
  exact ⟨⟨hr, fun _ => nofun⟩, fun _ => nofun, h, fun _ => nofun, fun _ => nofun,
    ⟨fun _ => nofun, fun _ => nofun, fun _ => nofun, hr⟩⟩

end ElectricEel.Control
