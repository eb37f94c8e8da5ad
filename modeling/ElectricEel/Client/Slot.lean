/-
  ElectricEel.Client.Slot — the child slot: whom a request reaches, and whether presence
  runs there (helper/src/session_client.rs).

  A child reads its VIN and timeouts once, when it is spawned; `run` spawns one only into
  an empty slot and writes to whatever child is in it. `presence_active` is set by an
  answered presence-start and cleared by an answered presence-stop, by a failed run and
  by invalidate.

  Proved: while the children and their readers move, the slot keeps its child and the
  client's flag and ghosts stay (`move_same`); if the slot's child has certain spawn
  arguments and every call passes the same ones, every line goes to such a child
  (`step_addressed`); the flag is true only with a child in the slot whose last answered
  presence request was a start (`step_truthful`); a child comes to run presence only by
  answering a start (`run_running`).
-/
import ElectricEel.Client.OneRun

namespace ElectricEel.Client

open Lib Commands Wire Child

/-! ## The slot -/

structure SpawnArgs where
  vin : String
  connectTimeoutSec : Int
  commandTimeoutSec : Int
  deriving DecidableEq, Repr

def Handle.spawnArgs (h : Handle) : SpawnArgs := ⟨h.vin, h.connectTimeoutSec, h.commandTimeoutSec⟩

def Call.spawnArgs (c : Call) : SpawnArgs := ⟨c.vin, c.connectTimeoutSec, c.commandTimeoutSec⟩

/-- Those of the child the line went to. -/
def Target.spawnArgs (x : Target) : SpawnArgs := ⟨x.vin, x.connectTimeoutSec, x.commandTimeoutSec⟩

/-- The child in the slot: its generation and spawn arguments. -/
def Host.slot (s : Host) : Option (Nat × SpawnArgs) := s.client.child.map fun h => (h.gen, h.spawnArgs)

theorem slot_of {s : Host} {h : Handle} (hc : s.client.child = some h) : s.slot = some (h.gen, h.spawnArgs) := by
  rw [Host.slot, hc]
  rfl

theorem slot_none {s : Host} : s.slot = none ↔ s.client.child = none := Option.map_eq_none_iff

/-! ## What moves leave alone -/

structure Host.Same (s t : Host) : Prop where
  slot : t.slot = s.slot
  gens : t.client.gens = s.client.gens
  presenceActive : t.client.presenceActive = s.client.presenceActive
  acked : t.client.acked = s.client.acked
  targets : t.client.targets = s.client.targets
  sent : s.client.sent <+: t.client.sent

theorem Host.Same.refl (s : Host) : s.Same s := ⟨rfl, rfl, rfl, rfl, rfl, List.prefix_rfl⟩

theorem Host.Same.trans {s t u : Host} (h : s.Same t) (h' : t.Same u) : s.Same u :=
  ⟨h'.slot.trans h.slot, h'.gens.trans h.gens, h'.presenceActive.trans h.presenceActive, h'.acked.trans h.acked,
    h'.targets.trans h.targets, h.sent.trans h'.sent⟩

theorem setChild_same {s : Host} {h h' : Handle} (hc : s.client.child = some h) (hg : h'.gen = h.gen)
    (ha : h'.spawnArgs = h.spawnArgs) : s.Same (s.setChild (some h')) :=
  ⟨by rw [slot_of hc, slot_of rfl, hg, ha], rfl, rfl, rfl, rfl, List.prefix_rfl⟩

theorem setEvents_same (s : Host) (q : DropQueue Entry (63 + 1)) : s.Same (s.setEvents q) :=
  ⟨rfl, rfl, rfl, rfl, rfl, List.prefix_rfl⟩

theorem send_same {s : Host} {h : Handle} (hc : s.client.child = some h) (f : Frame) (answer : Bool) : s.Same (s.send h f answer) :=
  ⟨by rw [slot_of hc]; rfl, rfl, rfl, rfl, rfl, List.prefix_append _ _⟩

theorem serve_same {s : Host} {h : Handle} (hc : s.client.child = some h) (line : Line) (rest : List Line) (e : ServeEnv) :
    s.Same (s.serve h line rest e) := by
  have hslot : (s.serve h line rest e).slot = s.slot := by
    rw [slot_of hc]
    unfold Host.serve
    dsimp only
    split <;> rfl
  unfold Host.serve at hslot ⊢
  dsimp only at hslot ⊢
  split at hslot
  · exact ⟨hslot, rfl, rfl, rfl, rfl, List.prefix_rfl⟩
  · exact ⟨hslot, rfl, rfl, rfl, rfl, List.prefix_append _ _⟩

theorem read_same {s : Host} {h : Handle} (hc : s.client.child = some h) (p : Packet) (rest : List Packet) :
    s.Same (s.read h p rest) := by
  unfold Host.read
  split
  · exact setChild_same hc rfl rfl
  · exact (setChild_same hc (by rfl) (by rfl)).trans (setEvents_same _ _)
  · exact setChild_same hc rfl rfl
  · exact setChild_same hc rfl rfl
  · exact setChild_same hc rfl rfl

/-- Children and readers do not touch the slot, the flag and what the client logs. -/
theorem move_same (s : Host) (m : Move) : s.Same (s.move m) := by
  have hm := s.moved m
  generalize s.move m = t at hm ⊢
  cases hm with
  | stay | tick | enroll | revoke | unlinkKey => exact ⟨rfl, rfl, rfl, rfl, rfl, List.prefix_rfl⟩
  | send f hc => exact send_same hc f false
  | serve e hc _ => exact serve_same hc _ _ e
  | own o hc => exact setChild_same hc rfl rfl
  | exit m hc _ _ => exact setChild_same hc rfl rfl
  | read hc _ _ => exact read_same hc _ _
  | report hc _ => exact (setChild_same hc (by rfl) (by rfl)).trans (setEvents_same _ _)

theorem moves_same (s : Host) (ms : List Move) : s.Same (s.moves ms) := by
  induction ms generalizing s with
  | nil => exact .refl s
  | cons m ms ih => exact (move_same s m).trans (ih _)

theorem isAlive_of {s : Host} {h : Handle} (hc : s.client.child = some h) : s.isAlive = h.alive := by
  rw [Host.isAlive, hc]
  rfl

/-- A reader that left does not come back. -/
theorem move_alive {s : Host} {m : Move} (h : (s.move m).isAlive = true) : s.isAlive = true := by
  have hm := s.moved m
  generalize s.move m = t at hm h
  cases hm with
  | stay | tick | enroll | revoke | unlinkKey => exact h
  | send f hc => rw [isAlive_of hc]; exact h
  | @serve x line rest e hc _ =>
    rw [isAlive_of hc]
    unfold Host.serve at h
    dsimp only at h
    split at h <;> exact h
  | own o hc => rw [isAlive_of hc]; exact h
  | @exit x m hc _ _ =>
    rw [isAlive_of hc]
    rw [isAlive_of rfl] at h
    cases hp : x.phase with
    | reading => simp [Handle.alive, hp]
    | broke => simp [Handle.alive, hp]
    | marked =>
      rw [Handle.alive, Handle.exiting, hp] at h
      dsimp only at h
      split at h <;> cases h
    | reporting => simp [Handle.alive, Handle.exiting, hp] at h
    | done => simp [Handle.alive, Handle.exiting, hp] at h
  | @read x p rest hc hp _ =>
    rw [isAlive_of hc]
    simp [Handle.alive, hp]
  | report hc _ => cases h

theorem moves_alive {s : Host} {ms : List Move} (h : (s.moves ms).isAlive = true) : s.isAlive = true := by
  induction ms generalizing s with
  | nil => exact h
  | cons m ms ih => exact move_alive (ih h)

theorem take_same (s : Host) : s.Same s.take := by
  unfold Host.take
  split
  · rename_i h hc
    exact setChild_same hc rfl rfl
  · exact .refl s

theorem cancel_same (s : Host) : s.Same s.cancel := by
  unfold Host.cancel
  cases hc : s.client.child with
  | none => exact ⟨by simp [Host.slot, hc, Host.setChild], rfl, rfl, rfl, rfl, List.prefix_rfl⟩
  | some h => exact setChild_same hc rfl rfl

/-! ## Whom a line reaches -/

/-- Since `s` lines went to children spawned with `a` and after the first `floor` ones, and so
    will the next. -/
structure Addressed (a : SpawnArgs) (floor : Nat) (s t : Host) : Prop where
  slot : ∀ x ∈ t.slot, x.2 = a ∧ floor < x.1
  gens : floor ≤ t.client.gens
  targets : ∃ l, t.client.targets = s.client.targets ++ l ∧
    ∀ x ∈ l, x.spawnArgs = a ∧ x.call.spawnArgs = a ∧ floor < x.gen

section

variable {a : SpawnArgs} {floor : Nat} {s t u : Host}

theorem Addressed.start (hslot : ∀ x ∈ s.slot, x.2 = a ∧ floor < x.1) (hg : floor ≤ s.client.gens) : Addressed a floor s s :=
  ⟨hslot, hg, [], (List.append_nil _).symm, fun _ => nofun⟩

/-- A step that writes nothing and leaves the slot or empties it. -/
theorem Addressed.congr (h : Addressed a floor s t) (hslot : u.slot = t.slot ∨ u.slot = none) (hg : t.client.gens ≤ u.client.gens)
    (ht : u.client.targets = t.client.targets) : Addressed a floor s u where
  slot x hx := by
    rcases hslot with he | he
    · exact h.slot x (he ▸ hx)
    · rw [he] at hx
      cases hx
  gens := Nat.le_trans h.gens hg
  targets := by rw [ht]; exact h.targets

theorem Addressed.same (h : Addressed a floor s t) (hs : t.Same u) : Addressed a floor s u :=
  h.congr (.inl hs.slot) (Nat.le_of_eq hs.gens.symm) hs.targets

theorem Addressed.spawn (h : Addressed a floor s t) {c : Call} (hc : c.spawnArgs = a) : Addressed a floor s (t.spawn c) where
  slot x hx := by
    obtain rfl := Option.some.inj hx
    exact ⟨hc, Nat.lt_succ_of_le h.gens⟩
  gens := Nat.le_succ_of_le h.gens
  targets := h.targets

theorem writeLine_slot (s : Host) (c : Call) (long arrives : Bool) : (s.writeLine c long arrives).slot = s.slot := by
  show Option.map _ (Option.map _ s.client.child) = _
  rw [Option.map_map]
  refine congrArg (fun f => Option.map f s.client.child) (funext fun h => ?_)
  dsimp only [Function.comp_apply]
  split <;> rfl

theorem Addressed.writeLine (h : Addressed a floor s t) {c : Call} (hc : c.spawnArgs = a) (long arrives : Bool) :
    Addressed a floor s (t.writeLine c long arrives) where
  slot := by rw [writeLine_slot]; exact h.slot
  gens := h.gens
  targets := by
    obtain ⟨l, hl, hall⟩ := h.targets
    refine ⟨l ++ (t.client.child.map fun h => (⟨h.gen, h.vin, h.connectTimeoutSec, h.commandTimeoutSec, c⟩ : Target)).toList, ?_, ?_⟩
    · show t.client.targets ++ _ = _
      rw [hl, List.append_assoc]
    · intro x hx
      rcases List.mem_append.1 hx with hx | hx
      · exact hall x hx
      · obtain ⟨y, hy, rfl⟩ := Option.map_eq_some_iff.1 (Option.mem_toList.1 hx)
        obtain ⟨hargs, hgen⟩ := h.slot _ (slot_of hy)
        exact ⟨hargs, hc, hgen⟩

theorem Addressed.act {K : Move → Prop} (h : Addressed a floor s t) {c : Call} (hc : c.spawnArgs = a) {x : Act}
    (hx : RunAct c K x ∨ InvalidateAct K x) : Addressed a floor s (t.act x) := by
  cases x with
  | move m => exact h.same (move_same t m)
  | cancel => exact h.same (cancel_same t)
  | reap => exact h.congr (.inr rfl) (Nat.le_refl _) rfl
  | take => exact h.same (take_same t)
  | setPresence | acknowledge | clearEvents | transportFailed | pollEvent => exact h.congr (.inl rfl) (Nat.le_refl _) rfl
  | spawn c' =>
    rcases hx with rfl | hx
    · exact h.spawn hc
    · cases hx
  | writeLine c' long arrives =>
    rcases hx with rfl | hx
    · exact h.writeLine hc long arrives
    · cases hx

/-- An operation that passes the slot's own spawn arguments. -/
theorem step_addressed (h : Addressed a floor s t) {op : Op} (hop : ∀ c e, op = .run c e → c.spawnArgs = a) :
    Addressed a floor s (t.step op) := by
  cases op with
  | run c e => exact (Host.run_path t c e.any).inv (fun u x hx hu => hu.act (hop c e rfl) (.inl hx)) h
  | invalidate during =>
    exact (Host.invalidate_path (K := fun _ => True) t fun _ _ => trivial).inv
      (fun u x hx hu => hu.act (c := ⟨.presenceStop, [], a.vin, a.connectTimeoutSec, a.commandTimeoutSec⟩) rfl (.inr hx)) h
  | move m => exact h.same (move_same t m)
  | pollEvent | clearEvents => exact h.congr (.inl rfl) (Nat.le_refl _) rfl
  | files w => exact h.congr (.inl rfl) (Nat.le_refl _) rfl

end

/-! ## What a run comes to for the slot -/

theorem kill_reaps (s : Host) (during : List Move) : ∃ u, s.Same u ∧ s.kill during = u.reap :=
  ⟨_, ((cancel_same s).trans (moves_same _ during)).trans (move_same _ .report), rfl⟩

/-- `x` is in the slot, where it was alive or has just been spawned. -/
structure Opened (s t : Host) (x : Nat × SpawnArgs) : Prop where
  slot : t.slot = some x
  origin : s.slot = some x ∧ s.isAlive = true ∧ t.client.gens = s.client.gens ∨
    x.1 = s.client.gens + 1 ∧ t.client.gens = s.client.gens + 1
  presenceActive : t.client.presenceActive = true → s.client.presenceActive = true ∧ (s.slot = some x ∨ s.slot = none)
  acked : t.client.acked = s.client.acked
  sent : s.client.sent <+: t.client.sent

/-- The slot is empty, and presence off if a child was there. -/
structure Emptied (s t : Host) : Prop where
  slot : t.slot = none
  presenceActive : t.client.presenceActive = true → s.client.presenceActive = true ∧ s.slot = none
  acked : t.client.acked = s.client.acked
  gens : s.client.gens ≤ t.client.gens

inductive Ran (s : Host) (cmd : Cmd) : Host × Except SessionError RunOutcome → Prop
  | failed {t : Host} (err : SessionError) : Emptied s t → Ran s cmd (t, .error err)
  | answered {t : Host} {x : Nat × SpawnArgs} (r : Response) (seq : Nat) : Opened s t x →
      Ran s cmd (if r.ok && (cmd == .presenceStart || cmd == .presenceStop) then t.acknowledge ⟨x.1, cmd, seq⟩ else t, .ok r.outcome)

section

variable {s t u : Host} {x : Nat × SpawnArgs}

theorem Opened.same (h : Opened s t x) (hs : t.Same u) : Opened s u x where
  slot := hs.slot.trans h.slot
  origin := by rw [hs.gens]; exact h.origin
  presenceActive := by rw [hs.presenceActive]; exact h.presenceActive
  acked := hs.acked.trans h.acked
  sent := h.sent.trans hs.sent

theorem Opened.failed (h : Opened s t x) (killing : List Move) (err : SessionError) : Emptied s (t.fail killing err).1 := by
  obtain ⟨u, hu, hk⟩ := kill_reaps t killing
  refine ⟨?_, nofun, ?_, ?_⟩
  · show ((t.kill killing).transportFailed).slot = none
    rw [hk]
    rfl
  · show ((t.kill killing).transportFailed).client.acked = _
    rw [hk]
    exact hu.acked.trans h.acked
  · show _ ≤ ((t.kill killing).transportFailed).client.gens
    rw [hk]
    show s.client.gens ≤ u.client.gens
    rw [hu.gens]
    rcases h.origin with ⟨_, _, hg⟩ | ⟨_, hg⟩ <;> omega

/-- A child found dead leaves an empty slot. -/
theorem retireDead_emptied (ha : s.isAlive = false) (during : List Move) :
    Emptied s (s.retireDead during) ∧ (s.retireDead during).client.gens = s.client.gens ∧
      s.client.sent <+: (s.retireDead during).client.sent := by
  unfold Host.retireDead
  split
  · rename_i h hc
    have hd : h.alive = false := by simpa [Host.isAlive, hc] using ha
    obtain ⟨u, hu, hk⟩ := kill_reaps s during
    rw [hd, if_neg Bool.false_ne_true, hk]
    exact ⟨⟨rfl, fun hactive => Bool.noConfusion hactive, hu.acked, Nat.le_of_eq hu.gens.symm⟩, hu.gens, hu.sent⟩
  · rename_i hc
    exact ⟨⟨slot_none.2 hc, fun h => ⟨h, slot_none.2 hc⟩, rfl, Nat.le_refl _⟩, rfl, List.prefix_rfl⟩

theorem retireDead_alive (ha : s.isAlive = true) (during : List Move) : s.retireDead during = s := by
  unfold Host.retireDead
  split
  · rename_i h hc
    have hd : h.alive = true := by simpa [Host.isAlive, hc] using ha
    rw [hd, if_pos rfl]
  · rfl

theorem beforeWrite_opened {e : RunEnv} (h : s.reaches e = true) (c : Call) : ∃ x, Opened s (s.beforeWrite c e) x := by
  have hopen : ∃ x, Opened s ((s.retireDead e.retiring).ensureChild c e.spawn).1 x := by
    cases ha : s.isAlive with
    | true =>
      rw [retireDead_alive ha]
      unfold Host.ensureChild
      split
      · rename_i h hc
        exact ⟨_, slot_of hc, .inl ⟨slot_of hc, ha, rfl⟩, fun hp => ⟨hp, .inl (slot_of hc)⟩, rfl, List.prefix_rfl⟩
      · rename_i hc
        rw [Host.isAlive, hc] at ha
        cases ha
    | false =>
      obtain ⟨hempty, hg, hsent⟩ := retireDead_emptied ha e.retiring
      have hn := spawn_none h (slot_none.1 hempty.slot)
      rw [hn]
      unfold Host.ensureChild
      rw [slot_none.1 hempty.slot]
      refine ⟨_, rfl, .inr ⟨?_, ?_⟩, fun hp => ?_, hempty.acked, hsent⟩
      · exact congrArg (· + 1) hg
      · exact congrArg (· + 1) hg
      · obtain ⟨hf, hs⟩ := hempty.presenceActive hp
        exact ⟨hf, .inr hs⟩
  obtain ⟨x, hx⟩ := hopen
  exact ⟨x, hx.same (moves_same _ _)⟩

theorem Opened.writeLine (h : Opened s t x) (c : Call) (long arrives : Bool) : Opened s (t.writeLine c long arrives) x where
  slot := (writeLine_slot t c long arrives).trans h.slot
  origin := h.origin
  presenceActive := h.presenceActive
  acked := h.acked
  sent := h.sent

theorem Opened.received (h : Opened s t x) (id : String) (cmd : Cmd) (killing : List Move) : Ran s cmd (t.receive id cmd killing) := by
  have hr := Client.received t id cmd killing
  generalize t.receive id cmd killing = r at hr ⊢
  cases hr with
  | noChild hc =>
    have hslot := h.slot
    rw [slot_none.2 hc] at hslot
    cases hslot
  | failed u err hu _ =>
    refine .failed err ?_
    rcases hu with rfl | rfl
    · exact h.failed killing err
    · exact (h.same (take_same t)).failed killing err
  | answered h' p rest r hc _ _ _ =>
    obtain rfl := Option.some.inj ((slot_of hc).symm.trans h.slot)
    exact .answered r p.seq (h.same (take_same t))

/-- A run empties the slot, or leaves there the child that answered. -/
theorem ran (s : Host) (c : Call) (e : RunEnv) : Ran s c.cmd (s.run c e) := by
  cases hr : s.reaches e with
  | false =>
    obtain ⟨err, hrun⟩ := run_unreached hr c
    have ha : s.isAlive = false := (Bool.or_eq_false_iff.1 hr).1
    rw [hrun]
    exact .failed err (retireDead_emptied ha e.retiring).1
  | true =>
    obtain ⟨x, hx⟩ := beforeWrite_opened hr c
    rw [run_reached hr]
    unfold Host.afterWrite
    split
    · rename_i arrived _
      exact .failed .brokenPipe ((hx.writeLine c e.long arrived).failed _ .brokenPipe)
    · exact ((hx.writeLine c e.long true).same (moves_same _ _)).received _ _ _

end

/-! ## Presence in the slot -/

/-- The last presence request the generation answered OK. -/
def lastAck (acked : List Ack) (gen : Nat) : Option Ack := (acked.filter (·.gen = gen)).getLast?

theorem lastAck_append_self (acked : List Ack) (a : Ack) : lastAck (acked ++ [a]) a.gen = some a := by
  simp [lastAck]

theorem lastAck_fresh {acked : List Ack} {gen : Nat} (h : ∀ a ∈ acked, a.gen < gen) : lastAck acked gen = none := by
  have hf : acked.filter (fun a => decide (a.gen = gen)) = [] :=
    List.filter_eq_nil_iff.2 fun a ha => by simpa using Nat.ne_of_lt (h a ha)
  rw [lastAck, hf]
  rfl

/-- After that answer the child reported the end of its presence. -/
def Ack.ended (a : Ack) (sent : List Entry) : Prop :=
  ∃ x ∈ sent, x.ev.kind = .presenceStopped ∧ ∃ n, x.src = .frame a.gen n ∧ a.seq < n

/-- The child in the slot answered a presence-start OK, and no presence-stop since. -/
def Host.Started (s : Host) : Prop := ∃ x ∈ s.slot, ∃ a, lastAck s.client.acked x.1 = some a ∧ a.cmd = .presenceStart

/-- Nor has it reported that this presence ended. -/
def Host.Running (s : Host) : Prop :=
  ∃ x ∈ s.slot, ∃ a, lastAck s.client.acked x.1 = some a ∧ a.cmd = .presenceStart ∧ ¬ a.ended s.client.sent

/-- The flag is true only of a started child. -/
structure Truthful (s : Host) : Prop where
  flag : s.client.presenceActive = true → s.Started
  slot : ∀ x ∈ s.slot, x.1 ≤ s.client.gens
  acked : ∀ a ∈ s.client.acked, a.gen ≤ s.client.gens

section

variable {s t u : Host} {x : Nat × SpawnArgs} {cmd : Cmd}

theorem not_running_of_empty (h : s.slot = none) : ¬ s.Running := by
  rintro ⟨x, hx, _⟩
  rw [h] at hx
  cases hx

theorem Truthful.same (h : Truthful s) (hs : s.Same t) : Truthful t where
  flag := by
    rw [hs.presenceActive]
    unfold Host.Started
    rw [hs.slot, hs.acked]
    exact h.flag
  slot := by rw [hs.slot, hs.gens]; exact h.slot
  acked := by rw [hs.acked, hs.gens]; exact h.acked

theorem Truthful.off (h : Truthful s) (hf : t.client.presenceActive = false) (hslot : t.slot = none)
    (ha : t.client.acked = s.client.acked) (hg : s.client.gens ≤ t.client.gens) : Truthful t where
  flag hp := by rw [hf] at hp; cases hp
  slot := by rw [hslot]; exact fun _ => nofun
  acked := by
    rw [ha]
    exact fun a hm => Nat.le_trans (h.acked a hm) hg

/-- The flag of an empty slot is off. -/
theorem Truthful.empty (h : Truthful s) (hslot : s.slot = none) : s.client.presenceActive = false := by
  cases hf : s.client.presenceActive with
  | false => rfl
  | true =>
    obtain ⟨x, hx, _⟩ := h.flag hf
    rw [hslot] at hx
    cases hx

theorem Truthful.emptied (h : Truthful s) (he : Emptied s t) : Truthful t := by
  refine h.off ?_ he.slot he.acked he.gens
  cases hf : t.client.presenceActive with
  | false => rfl
  | true =>
    obtain ⟨hp, hn⟩ := he.presenceActive hf
    rw [h.empty hn] at hp
    cases hp

theorem Opened.gens (h : Opened s t x) : s.client.gens ≤ t.client.gens := by
  rcases h.origin with ⟨_, _, hg⟩ | ⟨_, hg⟩ <;> omega

theorem Opened.le (ht : Truthful s) (h : Opened s t x) : x.1 ≤ t.client.gens := by
  rcases h.origin with ⟨hx, _, hg⟩ | ⟨hx, hg⟩
  · rw [hg]
    exact ht.slot x hx
  · omega

theorem Truthful.opened (h : Truthful s) (ho : Opened s t x) : Truthful t where
  flag hp := by
    obtain ⟨hf, hslot⟩ := ho.presenceActive hp
    obtain ⟨y, hy, a, ha, hcmd⟩ := h.flag hf
    rcases hslot with hslot | hslot
    · exact ⟨y, by rw [ho.slot, ← hslot]; exact hy, a, by rw [ho.acked]; exact ha, hcmd⟩
    · rw [hslot] at hy
      cases hy
  slot y hy := by
    obtain rfl := Option.some.inj (ho.slot.symm.trans hy)
    exact ho.le h
  acked a ha := by
    rw [ho.acked] at ha
    exact Nat.le_trans (h.acked a ha) ho.gens

theorem Truthful.acknowledge (h : Truthful t) (hslot : t.slot = some x) (cmd : Cmd) (seq : Nat) :
    Truthful (t.acknowledge ⟨x.1, cmd, seq⟩) where
  flag hp := ⟨x, hslot, _, lastAck_append_self _ _, eq_of_beq hp⟩
  slot := h.slot
  acked a ha := by
    rcases List.mem_append.1 ha with ha | ha
    · exact h.acked a ha
    · rw [List.mem_singleton.1 ha]
      exact h.slot x hslot

theorem Truthful.run (h : Truthful s) (c : Call) (e : RunEnv) : Truthful (s.run c e).1 := by
  have hr := ran s c e
  generalize s.run c e = r at hr ⊢
  cases hr with
  | failed err he => exact h.emptied he
  | @answered t x r seq ho =>
    dsimp only
    split
    · exact (h.opened ho).acknowledge ho.slot c.cmd seq
    · exact h.opened ho

theorem invalidate_emptied (s : Host) (during : List Move) : Emptied s (s.invalidate during) := by
  have hslot : (s.invalidate during).slot = none := slot_none.2 (invalidate_child s during)
  obtain ⟨u, hu, hk⟩ := kill_reaps (s.setPresence false) during
  unfold Host.invalidate at hslot ⊢
  dsimp only at hslot ⊢
  split
  · rename_i hc
    rw [hk]
    refine ⟨rfl, fun hp => ?_, hu.acked, Nat.le_of_eq hu.gens.symm⟩
    have hoff : u.client.presenceActive = false := hu.presenceActive
    cases hoff.symm.trans hp
  · rename_i hc
    rw [if_neg hc] at hslot
    exact ⟨hslot, nofun, rfl, Nat.le_refl _⟩

theorem step_truthful (h : Truthful s) (op : Op) : Truthful (s.step op) := by
  cases op with
  | run c e => exact h.run c e
  | invalidate during => exact h.emptied (invalidate_emptied s during)
  | move m => exact h.same (move_same s m)
  | pollEvent | clearEvents | files => exact ⟨h.flag, h.slot, h.acked⟩

theorem truthful {s : Host} (h : AnyRun s) : Truthful s := by
  refine h.inv (I := Truthful) (fun s hs => ?_) fun s op hs _ => step_truthful hs op
  obtain ⟨b, hb⟩ := hs
  refine ⟨?_, ?_, ?_⟩
  · rw [hb]
    exact nofun
  · rw [Host.slot, hb]
    exact fun _ => nofun
  · rw [hb]
    exact fun _ => nofun

theorem Ack.ended.mono {a : Ack} {sent sent' : List Entry} (h : a.ended sent) (hp : sent <+: sent') : a.ended sent' := by
  obtain ⟨x, hx, hrest⟩ := h
  exact ⟨x, hp.subset hx, hrest⟩

theorem Host.Same.running (hs : s.Same t) (h : t.Running) : s.Running := by
  obtain ⟨x, hx, a, ha, hcmd, hn⟩ := h
  exact ⟨x, hs.slot ▸ hx, a, hs.acked ▸ ha, hcmd, fun he => hn (he.mono hs.sent)⟩

/-- Presence runs in the slot after a run: the run was a presence-start, answered OK; or it
    ran there before, and the run was no presence-stop answered OK. -/
theorem run_running (h : Truthful s) (c : Call) (e : RunEnv) (hr : (s.run c e).1.Running) :
    ∃ out, (s.run c e).2 = .ok out ∧ (out.ok = true ∧ c.cmd = .presenceStart ∨
      s.Running ∧ s.isAlive = true ∧ ¬ (out.ok = true ∧ c.cmd = .presenceStop)) := by
  have hran := ran s c e
  generalize s.run c e = r at hran hr ⊢
  cases hran with
  | failed err he => exact (not_running_of_empty he.slot hr).elim
  | @answered t x r seq ho =>
    refine ⟨r.outcome, rfl, ?_⟩
    dsimp only at hr
    split at hr
    · rename_i hack
      rw [Bool.and_eq_true, Bool.or_eq_true, beq_iff_eq, beq_iff_eq] at hack
      obtain ⟨y, hy, a, ha, hcmd, _⟩ := hr
      obtain rfl := Option.some.inj (ho.slot.symm.trans hy)
      obtain rfl := Option.some.inj ((lastAck_append_self t.client.acked _).symm.trans ha)
      exact .inl ⟨hack.1, hcmd⟩
    · rename_i hack
      obtain ⟨y, hy, a, ha, hcmd, hn⟩ := hr
      obtain rfl := Option.some.inj (ho.slot.symm.trans hy)
      rw [ho.acked] at ha
      rcases ho.origin with ⟨hslot, halive, _⟩ | ⟨hfresh, _⟩
      · refine .inr ⟨⟨x, hslot, a, ha, hcmd, fun he => hn (he.mono ho.sent)⟩, halive, fun hstop => hack ?_⟩
        rw [show r.ok = true from hstop.1, hstop.2]
        rfl
      · rw [lastAck_fresh fun b hb => Nat.lt_of_le_of_lt (h.acked b hb) (by omega)] at ha
        cases ha

end

end ElectricEel.Client
