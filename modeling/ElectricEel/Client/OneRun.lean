/-
  ElectricEel.Client.OneRun — what one `run` writes, and when it returns an outcome
  (helper/src/session_client.rs `run`).

  A `run` gets as far as its write if a child is alive or can be spawned (`Host.reaches`),
  and returns an outcome if the write succeeds and the first response the reader passes on
  before the deadline is under the request's id (`Host.answeredInTime`). Everything else
  is one error type or another.

  Proved: one `run` writes its request exactly once if it gets as far as its write, and
  nothing else (`run_writes`); it returns an outcome exactly when it gets there and is
  answered in time (`run_isOk`); with no child in the slot it pushes at most the one notice
  of its own failure, all other entries come from readers (`run_failures`); the clock does
  not go back (`path_now`); nobody but the caller writes config.json (`path_config`).
-/
import ElectricEel.Client.Correlation

namespace ElectricEel.Client

open Lib Commands Wire Child

/-! ## Moves and kills write nothing -/

theorem move_child_isSome (s : Host) (m : Move) : (s.move m).client.child.isSome = s.client.child.isSome := by
  have hm := s.moved m
  generalize s.move m = t at hm ⊢
  cases hm with
  | stay | tick | enroll | revoke | unlinkKey => rfl
  | send f hc => rw [hc]; rfl
  | @serve h line rest e hc hin =>
    obtain ⟨h', hc', _⟩ := serve_exchange (s := s) hin e (.serve e)
    rw [hc, hc']
    rfl
  | own o hc => rw [hc]; rfl
  | exit m hc _ _ => rw [hc]; rfl
  | @read h p rest hc _ hw =>
    obtain ⟨h', hc', _⟩ := read_replies s hw
    rw [hc, hc']
    rfl
  | report hc _ => rw [hc]; rfl

theorem moves_child_isSome (s : Host) (ms : List Move) : (s.moves ms).client.child.isSome = s.client.child.isSome := by
  induction ms generalizing s with
  | nil => rfl
  | cons m ms ih => exact (ih _).trans (move_child_isSome s m)

theorem kill_writes (s : Host) (during : List Move) : (s.kill during).client.writes = s.client.writes := by
  show ((s.cancel.moves during).move .report).client.writes = _
  rw [(move_logs _ _).writes, moves_writes]
  rfl

theorem retireDead_writes (s : Host) (during : List Move) : (s.retireDead during).client.writes = s.client.writes := by
  unfold Host.retireDead
  split
  · split
    · rfl
    · exact kill_writes s during
  · rfl

theorem ensureChild_writes (s : Host) (c : Call) (fault : Option SpawnFault) :
    (s.ensureChild c fault).1.client.writes = s.client.writes := by
  unfold Host.ensureChild
  split
  · rfl
  · split <;> rfl

theorem receive_keeps_writes (s : Host) (id : String) (cmd : Cmd) (killing : List Move) :
    (s.receive id cmd killing).1.client.writes = s.client.writes := by
  have hf : ∀ (t : Host) (err : SessionError), (t.fail killing err).1.client.writes = t.client.writes :=
    fun t _ => kill_writes t killing
  unfold Host.receive
  split
  · rfl
  split
  · exact hf _ _
  split
  · split
    · exact (hf _ _).trans (take_writes s)
    · split <;> exact take_writes s
  · exact (hf _ _).trans (take_writes s)

/-- With no child only the world moves. -/
theorem moves_noChild {s : Host} (h : s.client.child = none) (ms : List Move) : (s.moves ms).client = s.client := by
  have hone : ∀ (t : Host) (m : Move), t.client.child = none → (t.move m).client = t.client := by
    intro t m ht
    unfold Host.move
    split
    · rfl
    · rfl
    · rfl
    · rfl
    · rw [ht]
  induction ms generalizing s with
  | nil => rfl
  | cons m ms ih =>
    have hm := hone s m h
    exact (ih (by rw [hm]; exact h)).trans hm

/-! ## One run -/

/-- A child is alive, or one can be spawned. -/
def Host.reaches (s : Host) (e : RunEnv) : Bool := s.isAlive || e.spawn.isNone

/-- The client when it writes the request. -/
def Host.beforeWrite (s : Host) (c : Call) (e : RunEnv) : Host :=
  ((s.retireDead e.retiring).ensureChild c e.spawn).1.moves e.before

/-- What follows the write. -/
def Host.afterWrite (s : Host) (c : Call) (e : RunEnv) : Host × Except SessionError RunOutcome :=
  match e.write with
  | .failed arrived => ((s.beforeWrite c e).writeLine c e.long arrived).fail e.killing .brokenPipe
  | .ok => (((s.beforeWrite c e).writeLine c e.long true).moves e.waiting).receive (toString s.client.nextId) c.cmd e.killing

theorem retireDead_child (s : Host) (during : List Move) :
    (s.retireDead during).client.child = if s.isAlive then s.client.child else none := by
  unfold Host.retireDead Host.isAlive
  split
  · rename_i h hc
    simp only [hc, Option.any_some]
    split
    · rename_i ha
      exact hc
    · rfl
  · rename_i hc
    simp [hc]

/-- With no child left, one is spawned. -/
theorem spawn_none {s : Host} {e : RunEnv} (h : s.reaches e = true) (hc : (s.retireDead e.retiring).client.child = none) :
    e.spawn = none := by
  have hd : s.isAlive = false := by
    cases ha : s.isAlive with
    | false => rfl
    | true =>
      rw [retireDead_child, ha] at hc
      simp only [if_true] at hc
      simp [Host.isAlive, hc] at ha
  simpa [Host.reaches, hd] using h

theorem run_unreached {s : Host} {e : RunEnv} (h : s.reaches e = false) (c : Call) :
    ∃ err, s.run c e = (s.retireDead e.retiring, .error err) := by
  simp only [Host.reaches, Bool.or_eq_false_iff] at h
  obtain ⟨fault, hf⟩ := Option.isSome_iff_exists.1 (Option.not_isNone _ ▸ (by rw [h.2]; rfl) : e.spawn.isSome = true)
  refine ⟨fault.error, ?_⟩
  unfold Host.run Host.ensureChild
  rw [retireDead_child, h.1]
  simp only [Bool.false_eq_true, if_false, hf]

theorem beforeWrite_nextId (s : Host) (c : Call) (e : RunEnv) : (s.beforeWrite c e).client.nextId = s.client.nextId := by
  rw [Host.beforeWrite, moves_nextId, ensureChild_nextId, retireDead_nextId]

theorem beforeWrite_writes (s : Host) (c : Call) (e : RunEnv) : (s.beforeWrite c e).client.writes = s.client.writes := by
  rw [Host.beforeWrite, moves_writes, ensureChild_writes, retireDead_writes]

theorem beforeWrite_child {s : Host} {e : RunEnv} (h : s.reaches e = true) (c : Call) :
    (s.beforeWrite c e).client.child.isSome = true := by
  rw [Host.beforeWrite, moves_child_isSome]
  unfold Host.ensureChild
  split
  · rename_i hc
    rw [hc]
    rfl
  · rename_i hc
    rw [spawn_none h hc]
    rfl

theorem run_reached {s : Host} {e : RunEnv} (h : s.reaches e = true) (c : Call) : s.run c e = s.afterWrite c e := by
  have hn := beforeWrite_nextId s c e
  have hok : ((s.retireDead e.retiring).ensureChild c e.spawn).2 = .ok () := by
    unfold Host.ensureChild
    split
    · rfl
    · rename_i hc
      rw [spawn_none h hc]
  unfold Host.afterWrite
  rw [← hn]
  unfold Host.run Host.beforeWrite
  rcases hr : (s.retireDead e.retiring).ensureChild c e.spawn with ⟨t, err | _⟩
  · rw [hr] at hok
    cases hok
  · rfl

/-- One `run` writes its request, once, if there is a child to write to. -/
theorem run_writes (s : Host) (c : Call) (e : RunEnv) : ∃ l, (s.run c e).1.client.writes = s.client.writes ++ l ∧
    (∀ w ∈ l, w.req = s.request c) ∧ l.length = (s.reaches e).toNat := by
  cases hr : s.reaches e with
  | false =>
    obtain ⟨err, hrun⟩ := run_unreached hr c
    exact ⟨[], by rw [hrun, List.append_nil]; exact retireDead_writes s _, fun _ => nofun, rfl⟩
  | true =>
    obtain ⟨h, hc⟩ := Option.isSome_iff_exists.1 (beforeWrite_child hr c)
    have hreq : (s.beforeWrite c e).request c = s.request c := by unfold Host.request; rw [beforeWrite_nextId]
    have hline : ∀ arrives, ((s.beforeWrite c e).writeLine c e.long arrives).client.writes =
        s.client.writes ++ [⟨h.gen, s.request c⟩] := by
      intro arrives
      show (s.beforeWrite c e).client.writes ++ ((s.beforeWrite c e).client.child.map _).toList = _
      rw [hc, hreq, beforeWrite_writes]
      rfl
    refine ⟨[⟨h.gen, s.request c⟩], ?_, fun w hw => by rw [List.mem_singleton.1 hw], rfl⟩
    rw [run_reached hr]
    unfold Host.afterWrite
    split
    · exact (kill_writes _ _).trans (hline _)
    · rw [receive_keeps_writes, moves_writes]
      exact hline true

/-- The first response the reader passes on before the deadline, if it is under `id`. -/
def Host.hears (s : Host) (id : String) : Bool :=
  s.client.child.any fun h => h.rx.head?.any fun p => p.response.any fun r => r.id = id

/-- The write succeeds, and the answer is the first response to arrive in time. -/
def Host.answeredInTime (s : Host) (c : Call) (e : RunEnv) : Bool :=
  e.write = .ok && (((s.beforeWrite c e).writeLine c e.long true).moves e.waiting).hears (toString s.client.nextId)

theorem invalidate_writes (s : Host) (during : List Move) : (s.invalidate during).client.writes = s.client.writes := by
  unfold Host.invalidate
  dsimp only
  split
  · exact kill_writes _ _
  · rfl

/-- What a receive comes to: no child, a failed one, or the answer taken. -/
inductive Received (s : Host) (id : String) (cmd : Cmd) (killing : List Move) : Host × Except SessionError RunOutcome → Prop
  | noChild : s.client.child = none → Received s id cmd killing (s, .error .timeout)
  | failed (t : Host) (err : SessionError) : t = s ∨ t = s.take → s.hears id = false →
      Received s id cmd killing (t.fail killing err)
  | answered (h : Handle) (p : Packet) (rest : List Packet) (r : Response) : s.client.child = some h → h.rx = p :: rest →
      p.frame = .response r → s.hears id = true →
      Received s id cmd killing
        (if r.ok && (cmd == .presenceStart || cmd == .presenceStop) then s.take.acknowledge ⟨h.gen, cmd, p.seq⟩ else s.take,
          .ok r.outcome)

theorem received (s : Host) (id : String) (cmd : Cmd) (killing : List Move) :
    Received s id cmd killing (s.receive id cmd killing) := by
  unfold Host.receive
  split
  · exact .noChild ‹_›
  rename_i h hc
  split
  · rename_i hrx
    exact .failed s _ (.inl rfl) (by simp [Host.hears, hc, hrx])
  rename_i p rest hrx
  split
  · rename_i r hf
    have hh : s.hears id = decide (r.id = id) := by simp [Host.hears, hc, hrx, Packet.response, hf]
    split
    · rename_i hid
      exact .failed s.take _ (.inr rfl) (by rw [hh]; exact decide_eq_false hid)
    · rename_i hid
      have ha := @Received.answered s id cmd killing h p rest r hc hrx hf (by rw [hh]; exact decide_eq_true (not_not.1 hid))
      split
      · rename_i hok
        rwa [if_pos hok] at ha
      · rename_i hok
        rwa [if_neg hok] at ha
  · rename_i hf
    refine .failed s.take _ (.inr rfl) ?_
    have hr : p.response = none := by
      unfold Packet.response
      split
      · exact absurd ‹_› (hf _)
      · rfl
    simp [Host.hears, hc, hrx, hr]

theorem receive_isOk {s : Host} (h : s.client.child.isSome = true) (id : String) (cmd : Cmd) (killing : List Move) :
    (s.receive id cmd killing).2.toBool = s.hears id := by
  have hr := received s id cmd killing
  generalize s.receive id cmd killing = r at hr ⊢
  cases hr with
  | noChild hc => rw [hc] at h; cases h
  | failed t err _ hh => rw [hh]; rfl
  | answered x p rest r _ _ _ hh => rw [hh]; rfl

/-- A `run` returns an outcome exactly when it gets to its write and is answered in time. -/
theorem run_isOk (s : Host) (c : Call) (e : RunEnv) : (s.run c e).2.toBool = (s.reaches e && s.answeredInTime c e) := by
  cases hr : s.reaches e with
  | false =>
    obtain ⟨err, hrun⟩ := run_unreached hr c
    rw [hrun]
    rfl
  | true =>
    rw [run_reached hr]
    unfold Host.afterWrite Host.answeredInTime
    cases e.write with
    | failed arrived => rfl
    | ok =>
      have hc : (((s.beforeWrite c e).writeLine c e.long true).moves e.waiting).client.child.isSome = true := by
        rw [moves_child_isSome]
        exact (Option.isSome_map ..).trans (beforeWrite_child hr c)
      dsimp only
      rw [receive_isOk hc]
      simp

/-! ## The notices of failed runs -/

def Origin.isFailed : Origin → Bool
  | .failed _ => true
  | _ => false

/-- The entries `transport_failed` pushed. -/
def Host.failures (s : Host) : Nat := s.client.events.pushed.countP (·.src.isFailed)

/-- The entries readers pushed. -/
def Host.emitted (s : Host) : Nat := s.client.events.pushed.countP (!·.src.isFailed)

theorem failures_add_emitted (s : Host) : s.failures + s.emitted = s.client.events.pushed.length := by
  rw [Host.failures, Host.emitted, List.length_eq_countP_add_countP fun x : Entry => x.src.isFailed]
  simp

theorem failures_of_events {s t : Host} (h : t.client.events = s.client.events) : t.failures = s.failures := by
  unfold Host.failures
  rw [h]

theorem move_failures (s : Host) (m : Move) : (s.move m).failures = s.failures := by
  cases move_heard s m with
  | nothing hq => exact failures_of_events hq
  | frame h e n _ _ hq =>
    unfold Host.failures
    rw [hq, DropQueue.push_pushed, List.countP_append]
    rfl
  | closed h _ _ hq =>
    unfold Host.failures
    rw [hq, DropQueue.push_pushed, List.countP_append]
    rfl

@[simp] theorem moves_failures (s : Host) (ms : List Move) : (s.moves ms).failures = s.failures := by
  induction ms generalizing s with
  | nil => rfl
  | cons m ms ih => exact (ih _).trans (move_failures s m)

@[simp] theorem kill_failures (s : Host) (during : List Move) : (s.kill during).failures = s.failures :=
  (move_failures _ _).trans (moves_failures s.cancel during)

theorem transportFailed_failures (s : Host) : s.transportFailed.failures = s.failures + 1 := by
  show (DropQueue.push _ _).pushed.countP _ = _
  rw [DropQueue.push_pushed, List.countP_append]
  rfl

theorem invalidate_failures (s : Host) (during : List Move) : (s.invalidate during).failures = s.failures := by
  unfold Host.invalidate
  dsimp only
  split
  · exact kill_failures (s.setPresence false) during
  · rfl

theorem fail_failures (s : Host) (killing : List Move) (err : SessionError) :
    (s.fail killing err).1.failures = s.failures + 1 :=
  (transportFailed_failures _).trans (congrArg (· + 1) (kill_failures s killing))

theorem take_failures (s : Host) : s.take.failures = s.failures := by
  refine failures_of_events ?_
  unfold Host.take
  split <;> rfl

theorem receive_failures (s : Host) (id : String) (cmd : Cmd) (killing : List Move) :
    (s.receive id cmd killing).1.failures ≤ s.failures + if (s.receive id cmd killing).2.toBool then 0 else 1 := by
  have hr := received s id cmd killing
  generalize s.receive id cmd killing = r at hr ⊢
  cases hr with
  | noChild _ => exact Nat.le_succ _
  | failed t err ht _ =>
    refine Nat.le_of_eq ((fail_failures t killing err).trans (congrArg (· + 1) ?_))
    rcases ht with rfl | rfl
    · rfl
    · exact take_failures s
  | answered x p rest r _ _ _ _ =>
    refine Nat.le_of_eq ?_
    dsimp only
    split <;> exact take_failures s

/-- A run that finds no child pushes a notice only if it fails after the write. -/
theorem run_failures {s : Host} (h : s.client.child = none) (c : Call) (e : RunEnv) :
    (s.run c e).1.failures ≤ s.failures + if (s.run c e).2.toBool then 0 else 1 := by
  have hret : s.retireDead e.retiring = s := by
    unfold Host.retireDead
    rw [h]
  have hbefore : (s.beforeWrite c e).failures = s.failures := by
    rw [Host.beforeWrite, hret, moves_failures]
    unfold Host.ensureChild
    rw [h]
    cases e.spawn <;> rfl
  cases hr : s.reaches e with
  | false =>
    obtain ⟨err, hrun⟩ := run_unreached hr c
    rw [hrun, hret]
    exact Nat.le_succ _
  | true =>
    rw [run_reached hr]
    unfold Host.afterWrite
    split
    · rw [fail_failures]
      exact Nat.le_of_eq (congrArg (· + 1) hbefore)
    · refine Nat.le_trans (receive_failures _ _ _ _) (Nat.le_of_eq (congrArg (· + _) ?_))
      rw [moves_failures]
      exact hbefore

/-! ## What poll_event returned -/

theorem act_popped {a : Act} (h : a ≠ .pollEvent) (s : Host) : (s.act a).client.events.popped = s.client.events.popped := by
  cases a with
  | pollEvent => exact absurd rfl h
  | move m =>
    show (s.move m).client.events.popped = _
    cases move_heard s m with
    | nothing hq => rw [hq]
    | frame _ _ _ _ _ hq => rw [hq, DropQueue.push_popped]
    | closed _ _ _ hq => rw [hq, DropQueue.push_popped]; rfl
  | transportFailed =>
    show (DropQueue.push _ _).popped = _
    rw [DropQueue.push_popped]
    rfl
  | take =>
    show s.take.client.events.popped = _
    unfold Host.take
    split <;> rfl
  | _ => rfl

theorem path_popped {P : Act → Prop} (hp : ¬ P .pollEvent) {s t : Host} (p : Host.Path P s t) :
    t.client.events.popped = s.client.events.popped :=
  p.inv (I := fun t => t.client.events.popped = s.client.events.popped)
    (fun t _ ha h => (act_popped (fun he => hp (he ▸ ha)) t).trans h) rfl

theorem run_popped (s : Host) (c : Call) (e : RunEnv) : (s.run c e).1.client.events.popped = s.client.events.popped :=
  path_popped (fun h => h) (Host.run_path s c e.any)

theorem invalidate_popped (s : Host) (during : List Move) :
    (s.invalidate during).client.events.popped = s.client.events.popped :=
  path_popped (fun h => h) (Host.invalidate_path (K := fun _ => True) s fun _ _ => trivial)

theorem moves_popped (s : Host) (ms : List Move) : (s.moves ms).client.events.popped = s.client.events.popped :=
  path_popped (P := fun a => ∃ m, a = .move m) (fun ⟨_, h⟩ => nomatch h) (Host.moves_path s fun m _ => ⟨m, rfl⟩)

/-! ## The clock -/

theorem serve_world (s : Host) (h : Handle) (line : Line) (rest : List Line) (e : ServeEnv) :
    (s.serve h line rest e).world = (serveLine s.world h.proc line e).2.1 := by
  unfold Host.serve
  dsimp only
  split <;> rfl

theorem serve_now (s : Host) (h : Handle) (line : Line) (rest : List Line) (e : ServeEnv) :
    (s.serve h line rest e).world.now = s.world.now := by
  rw [serve_world]
  rcases serveLine_effect s.world h.proc line e with ⟨_, hw⟩ | ⟨_, _, _, _, hw⟩
  · rw [hw]
  · exact hw.now

theorem move_now (s : Host) (m : Move) : s.world.now ≤ (s.move m).world.now := by
  have hm := s.moved m
  generalize s.move m = t at hm ⊢
  cases hm with
  | tick ms => exact Nat.le_add_right _ _
  | @serve h line rest e hc hin => exact Nat.le_of_eq (serve_now s h line rest e).symm
  | read hc hp hw =>
    unfold Host.read
    split <;> exact Nat.le_refl _
  | _ => exact Nat.le_refl _

theorem moves_now (s : Host) (ms : List Move) : s.world.now ≤ (s.moves ms).world.now := by
  induction ms generalizing s with
  | nil => exact Nat.le_refl _
  | cons m ms ih => exact Nat.le_trans (move_now s m) (ih _)

theorem path_now {P : Act → Prop} {s t : Host} (p : Host.Path P s t) : s.world.now ≤ t.world.now := by
  refine p.inv (I := fun t => s.world.now ≤ t.world.now) (fun t a _ h => Nat.le_trans h ?_) (Nat.le_refl _)
  cases a with
  | move m => exact move_now t m
  | take =>
    show _ ≤ t.take.world.now
    unfold Host.take
    split <;> exact Nat.le_refl _
  | _ => exact Nat.le_refl _

theorem run_now (s : Host) (c : Call) (e : RunEnv) : s.world.now ≤ (s.run c e).1.world.now := path_now (Host.run_path s c e.any)

theorem invalidate_now (s : Host) (during : List Move) : s.world.now ≤ (s.invalidate during).world.now :=
  path_now (Host.invalidate_path (K := fun _ => True) s fun _ _ => trivial)

/-! ## What an atomic step does to the files and the enrollments -/

inductive Touched (s : Host) (a : Act) (w : World) : Prop
  | nothing : w.disk = s.world.disk → w.confirmed = s.world.confirmed → Touched s a w
  | unlinkKey : a = .move .unlinkKey → w = s.world.setPriv none → Touched s a w
  | served {h : Handle} {line : Line} {rest : List Line} (e : ServeEnv) : s.client.child = some h → h.inbox = line :: rest →
      w = (serveLine s.world h.proc line e).2.1 → Touched s a w

theorem act_touched (s : Host) (a : Act) : Touched s a (s.act a).world := by
  cases a with
  | move m =>
    have hm := s.moved m
    show Touched s (.move m) (s.move m).world
    generalize s.move m = t at hm ⊢
    cases hm with
    | unlinkKey => exact .unlinkKey rfl rfl
    | serve e hc hin => exact .served e hc hin (serve_world _ _ _ _ e)
    | read hc hp hw =>
      unfold Host.read
      split <;> exact .nothing rfl rfl
    | _ => exact .nothing rfl rfl
  | take =>
    show Touched s .take s.take.world
    unfold Host.take
    split <;> exact .nothing rfl rfl
  | _ => exact .nothing rfl rfl

theorem act_config (s : Host) (a : Act) : (s.act a).world.disk.config = s.world.disk.config := by
  cases act_touched s a with
  | nothing hd _ => rw [hd]
  | unlinkKey _ hw => rw [hw]; rfl
  | @served h line rest e _ _ hw =>
    rw [hw]
    rcases serveLine_effect s.world h.proc line e with ⟨_, he⟩ | ⟨_, _, _, _, he⟩
    · rw [he]
    · exact he.config

theorem path_config {P : Act → Prop} {s t : Host} (p : Host.Path P s t) : t.world.disk.config = s.world.disk.config :=
  p.inv (I := fun t => t.world.disk.config = s.world.disk.config) (fun t a _ h => (act_config t a).trans h) rfl

end ElectricEel.Client
