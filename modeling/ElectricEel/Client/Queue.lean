/-
  ElectricEel.Client.Queue — whose events the queue holds (session_client.rs).

  The queue outlives children and is written by the reader of the current one. Frames of
  generation g enter it only through g's reader; every path on which g is given up joins
  that reader before it clears the queue (`transport_failed`, `invalidate`), so when
  g + 1 is spawned nothing of g is left.

  Proved, for every sequence of run, invalidate, poll_event, clear_events and of moves of
  children and readers in between:
  (1) Purity (`poll_pure`): what poll_event returns is a presence_stopped notice or a
      frame of the last generation spawned.
  (2) Order (`returned_order`): the frames of one generation come back in the order they
      were sent, none twice.
  (3) Accounting (`frames_accounted`): until a generation's reader has finished, each
      frame it sent was returned, was pushed out as the head of a full queue, was
      discarded by clear_events, waits in the queue or has not been read.
  (4) The three together, with the bound (`queue_generation_purity`).
-/
import ElectricEel.Lib.Runs
import ElectricEel.Client.Session
import Mathlib.Data.List.Nodup

namespace ElectricEel.Client

open Lib Commands Wire Child

/-! ## The machine -/

inductive Op where
  | run (c : Call) (e : RunEnv)
  | invalidate (during : List Move)
  | pollEvent
  | clearEvents
  | move (m : Move)
  /-- The caller changes its files. -/
  | files (w : World)

def Host.step (s : Host) : Op → Host
  | .run c e => (s.run c e).1
  | .invalidate during => s.invalidate during
  | .pollEvent => s.pollEvent.1
  | .clearEvents => s.clearEvents
  | .move m => s.move m
  | .files w => s.setWorld w

def Host.Fresh (s : Host) : Prop := ∃ b, s.client = .new b

def hosts : Machine Host Op := { init := Host.Fresh, step := Host.step }

/-! ## Frames and notices -/

def Origin.isFrame (g : Nat) : Origin → Bool
  | .frame g' _ => g' == g
  | _ => false

def framesOf (g : Nat) (l : List Entry) : List Entry := l.filter fun x => x.src.isFrame g

/-- The synthetic notices of `spawn_reader` and `transport_failed`. -/
def Notice (x : Entry) : Prop := x.ev.kind = .presenceStopped ∧ ∃ g, x.src = .closed g ∨ x.src = .failed g

def packetEvents (g : Nat) (p : Packet) : List Entry :=
  match p.frame with
  | .event e => [⟨e, .frame g p.seq⟩]
  | _ => []

/-- The event frames sent and not yet read. -/
def Handle.unread (h : Handle) : List Entry := h.wire.flatMap (packetEvents h.gen)

@[simp] theorem framesOf_append (g : Nat) (a b : List Entry) : framesOf g (a ++ b) = framesOf g a ++ framesOf g b :=
  List.filter_append ..

theorem framesOf_nil_of {g : Nat} {l : List Entry} (h : ∀ x ∈ l, x.src.isFrame g = false) : framesOf g l = [] := by
  unfold framesOf
  rw [List.filter_eq_nil_iff]
  intro x hx
  simp [h x hx]

theorem Notice.isFrame {x : Entry} (h : Notice x) (g : Nat) : x.src.isFrame g = false := by
  obtain ⟨_, g', h | h⟩ := h <;> rw [h] <;> rfl

theorem closedNotice_notice (g : Nat) : Notice (closedNotice g) := ⟨rfl, g, .inl rfl⟩

theorem failedNotice_notice (g : Nat) : Notice (failedNotice g) := ⟨rfl, g, .inr rfl⟩

@[simp] theorem framesOf_closed (g g' : Nat) : framesOf g [closedNotice g'] = [] := rfl

@[simp] theorem framesOf_failed (g g' : Nat) : framesOf g [failedNotice g'] = [] := rfl

theorem sentEvents_eq (h : Handle) (f : Frame) (answer : Bool) : Host.sentEvents h f = packetEvents h.gen ⟨f, h.sentCount, answer⟩ := by
  cases f <;> rfl

theorem mem_packetEvents {g : Nat} {p : Packet} {x : Entry} (h : x ∈ packetEvents g p) : x.src = .frame g p.seq := by
  unfold packetEvents at h
  split at h
  · rw [List.mem_singleton.1 h]
  · cases h

theorem framesOf_packetEvents (g g' : Nat) (p : Packet) :
    framesOf g (packetEvents g' p) = if g' = g then packetEvents g' p else [] := by
  unfold packetEvents
  split
  · by_cases h : g' = g
    · simp [framesOf, Origin.isFrame, h]
    · simp [framesOf, Origin.isFrame, h]
  · simp [framesOf]

/-! ## What every atomic step keeps -/

structure Base (s : Host) : Prop where
  gen : ∀ h, s.client.child = some h → h.gen = s.client.gens
  sent : ∀ x ∈ s.client.sent, ∃ g n, x.src = .frame g n ∧ g ≤ s.client.gens ∧
    ∀ h, s.client.child = some h → h.gen = g → n < h.sentCount
  nodup : (s.client.sent.map Entry.src).Nodup
  pushed : ∀ x ∈ s.client.events.pushed, (∃ g n, x.src = .frame g n ∧ g ≤ s.client.gens) ∨ Notice x
  /-- What was read of a generation is the beginning of what it sent. -/
  prefix_sent : ∀ g, framesOf g s.client.events.pushed <+: framesOf g s.client.sent
  live : ∀ h, s.client.child = some h →
    framesOf h.gen s.client.events.pushed ++ h.unread = framesOf h.gen s.client.sent
  explicit : ∀ x ∈ s.client.explicit, x ∈ s.client.events.pushed

/-- `Base` reads the child's generation, wire and frame count, the two logs and nothing else. -/
theorem Base.congr {s t : Host} (hs : Base s) (hg : t.client.gens = s.client.gens) (hsent : t.client.sent = s.client.sent)
    (hp : t.client.events.pushed = s.client.events.pushed) (he : ∀ x ∈ t.client.explicit, x ∈ s.client.events.pushed)
    (hc : ∀ h', t.client.child = some h' →
      ∃ h, s.client.child = some h ∧ h'.gen = h.gen ∧ h'.wire = h.wire ∧ h'.sentCount = h.sentCount) : Base t where
  gen h' h := by
    obtain ⟨h0, h1, h2, _⟩ := hc h' h
    rw [h2, hg, hs.gen h0 h1]
  sent x hx := by
    obtain ⟨g, n, h1, h2, h3⟩ := hs.sent x (hsent ▸ hx)
    refine ⟨g, n, h1, hg ▸ h2, fun h' h he => ?_⟩
    obtain ⟨h0, hc0, hgen, _, hcount⟩ := hc h' h
    rw [hcount]
    exact h3 h0 hc0 (hgen ▸ he)
  nodup := hsent ▸ hs.nodup
  pushed x hx := by rw [hg]; exact hs.pushed x (hp ▸ hx)
  prefix_sent g := by rw [hp, hsent]; exact hs.prefix_sent g
  live h' h := by
    obtain ⟨h0, hc0, hgen, hwire, _⟩ := hc h' h
    have := hs.live h0 hc0
    rw [hp, hsent, Handle.unread, hwire, hgen]
    exact this
  explicit x hx := hp ▸ he x hx

theorem Base.setChild {s : Host} (hs : Base s) {h h' : Handle} (hc : s.client.child = some h) (hg : h'.gen = h.gen)
    (hw : h'.wire = h.wire) (hn : h'.sentCount = h.sentCount) : Base (s.setChild (some h')) :=
  hs.congr rfl rfl rfl hs.explicit fun h'' e => by
    obtain rfl : h' = h'' := Option.some.inj e
    exact ⟨h, hc, hg, hw, hn⟩

/-- A notice pushed after a clear. -/
theorem Base.notice {s : Host} (hs : Base s) {x : Entry} (hx : Notice x) :
    Base (s.setEvents (s.client.events.clear.push x)) := by
  have hp : (s.client.events.clear.push x).pushed = s.client.events.pushed ++ [x] := by simp
  have hf : ∀ g, framesOf g (s.client.events.pushed ++ [x]) = framesOf g s.client.events.pushed := fun g => by
    rw [framesOf_append, framesOf_nil_of (l := [x]) (by simpa using hx.isFrame g), List.append_nil]
  constructor
  · exact hs.gen
  · exact hs.sent
  · exact hs.nodup
  · intro y hy
    rcases List.mem_append.1 (hp ▸ hy) with hy | hy
    · exact hs.pushed y hy
    · exact .inr (List.mem_singleton.1 hy ▸ hx)
  · intro g
    show framesOf g (s.client.events.clear.push x).pushed <+: _
    rw [hp, hf]; exact hs.prefix_sent g
  · intro h hc
    show framesOf h.gen (s.client.events.clear.push x).pushed ++ _ = _
    rw [hp, hf]; exact hs.live h hc
  · intro y hy
    show y ∈ (s.client.events.clear.push x).pushed
    rw [hp]; exact List.mem_append_left _ (hs.explicit y hy)

theorem Base.send {s : Host} (hs : Base s) {h : Handle} (hc : s.client.child = some h) (f : Frame) (answer : Bool) :
    Base (s.send h f answer) := by
  have hfr : ∀ g, framesOf g (Host.sentEvents h f) = if h.gen = g then Host.sentEvents h f else [] := fun g => by
    rw [sentEvents_eq h f answer]; exact framesOf_packetEvents ..
  constructor
  · intro h' e
    obtain rfl := Option.some.inj e
    exact hs.gen h hc
  · intro x hx
    rcases List.mem_append.1 hx with hx | hx
    · obtain ⟨g, n, h1, h2, h3⟩ := hs.sent x hx
      refine ⟨g, n, h1, h2, fun h' e hg => ?_⟩
      obtain rfl := Option.some.inj e
      exact Nat.lt_succ_of_lt (h3 h hc hg)
    · rw [sentEvents_eq h f answer] at hx
      refine ⟨h.gen, h.sentCount, mem_packetEvents hx, Nat.le_of_eq (hs.gen h hc), fun h' e _ => ?_⟩
      obtain rfl := Option.some.inj e
      exact Nat.lt_succ_self _
  · -- the new frame's number is past all earlier ones of its generation
    show ((s.client.sent ++ Host.sentEvents h f).map Entry.src).Nodup
    rw [List.map_append, List.nodup_append]
    refine ⟨hs.nodup, ?_, ?_⟩
    · unfold Host.sentEvents
      split <;> simp
    · intro a ha b hb hab
      obtain ⟨x, hx, rfl⟩ := List.mem_map.1 ha
      obtain ⟨y, hy, rfl⟩ := List.mem_map.1 hb
      obtain ⟨g, n, h1, _, h3⟩ := hs.sent x hx
      rw [sentEvents_eq h f answer] at hy
      have hy' := mem_packetEvents hy
      rw [h1, hy'] at hab
      injection hab with hg hn
      have := h3 h hc hg.symm
      simp only at hn
      omega
  · exact hs.pushed
  · intro g
    show framesOf g s.client.events.pushed <+: framesOf g (s.client.sent ++ _)
    rw [framesOf_append]
    exact (hs.prefix_sent g).trans (List.prefix_append _ _)
  · intro h' e
    obtain rfl := Option.some.inj e
    show framesOf h.gen s.client.events.pushed ++ List.flatMap _ (h.wire ++ [_]) = framesOf h.gen (s.client.sent ++ _)
    rw [framesOf_append, hfr, if_pos rfl, ← hs.live h hc, List.flatMap_append, List.append_assoc,
      sentEvents_eq h f answer]
    simp [Handle.unread]
  · exact hs.explicit

theorem Base.serve {s : Host} (hs : Base s) {h : Handle} (hc : s.client.child = some h) (line : Line) (rest : List Line)
    (e : ServeEnv) : Base (s.serve h line rest e) := by
  have hmid : ∀ (h' : Handle) (w : World) (as : List Answer), h'.gen = h.gen → h'.wire = h.wire → h'.sentCount = h.sentCount →
      Base { client := { s.client with child := some h', answered := as }, world := w } := by
    intro h' w as hg hw hn
    refine hs.congr rfl rfl rfl hs.explicit fun h'' e => ?_
    obtain rfl := Option.some.inj e
    exact ⟨h, hc, hg, hw, hn⟩
  unfold Host.serve
  dsimp only
  split
  · exact hmid _ _ _ rfl rfl rfl
  · refine Base.send (hmid _ _ _ ?_ ?_ ?_) rfl _ true <;> rfl

theorem Base.read {s : Host} (hs : Base s) {h : Handle} (hc : s.client.child = some h) {p : Packet} {rest : List Packet}
    (hw : h.wire = p :: rest) : Base (s.read h p rest) := by
  -- a frame that is no event leaves the unread events as they are
  have hquiet : packetEvents h.gen p = [] → ∀ h', h'.gen = h.gen → h'.wire = rest → h'.sentCount = h.sentCount →
      Base (s.setChild (some h')) := by
    intro hp h' hg hw' hn
    constructor
    · intro h'' e
      obtain rfl := Option.some.inj e
      exact hg.trans (hs.gen h hc)
    · intro x hx
      obtain ⟨g, n, h1, h2, h3⟩ := hs.sent x hx
      refine ⟨g, n, h1, h2, fun h'' e he => ?_⟩
      obtain rfl := Option.some.inj e
      exact hn ▸ h3 h hc (hg ▸ he)
    · exact hs.nodup
    · exact hs.pushed
    · exact hs.prefix_sent
    · intro h'' e
      obtain rfl := Option.some.inj e
      have := hs.live h hc
      rw [Handle.unread, hw, List.flatMap_cons, hp, List.nil_append] at this
      rw [Handle.unread, hw', hg]
      exact this
    · exact hs.explicit
  unfold Host.read
  split
  · exact hquiet (by simp [packetEvents, *]) _ rfl rfl rfl
  · rename_i e hf
    have hev : packetEvents h.gen p = [⟨e, .frame h.gen p.seq⟩] := by simp [packetEvents, hf]
    have hp : (s.client.events.push ⟨e, .frame h.gen p.seq⟩).pushed =
        s.client.events.pushed ++ packetEvents h.gen p := by rw [hev]; simp
    have hlive := hs.live h hc
    rw [Handle.unread, hw, List.flatMap_cons, ← List.append_assoc] at hlive
    constructor
    · intro h'' e
      obtain rfl := Option.some.inj e
      exact hs.gen h hc
    · intro x hx
      obtain ⟨g, n, h1, h2, h3⟩ := hs.sent x hx
      refine ⟨g, n, h1, h2, fun h'' e he => ?_⟩
      obtain rfl := Option.some.inj e
      exact h3 h hc he
    · exact hs.nodup
    · intro x hx
      rcases List.mem_append.1 (hp ▸ hx) with hx | hx
      · exact hs.pushed x hx
      · exact .inl ⟨h.gen, p.seq, mem_packetEvents hx, Nat.le_of_eq (hs.gen h hc)⟩
    · intro g
      show framesOf g (s.client.events.push _).pushed <+: _
      rw [hp, framesOf_append, framesOf_packetEvents]
      split
      · rename_i hg
        rw [← hg]
        exact ⟨_, hlive⟩
      · rw [List.append_nil]
        exact hs.prefix_sent g
    · intro h'' e
      obtain rfl := Option.some.inj e
      show framesOf h.gen (s.client.events.push _).pushed ++ List.flatMap _ rest = _
      rw [hp, framesOf_append, framesOf_packetEvents, if_pos rfl]
      exact hlive
    · intro x hx
      show x ∈ (s.client.events.push _).pushed
      rw [hp]
      exact List.mem_append_left _ (hs.explicit x hx)
  · exact hquiet (by simp [packetEvents, *]) _ rfl rfl rfl
  · exact hquiet (by simp [packetEvents, *]) _ rfl rfl rfl
  · exact hquiet (by simp [packetEvents, *]) _ rfl rfl rfl

theorem Base.move {s : Host} (hs : Base s) (m : Move) : Base (s.move m) := by
  have hw : ∀ w, Base (s.setWorld w) := fun w => hs.congr rfl rfl rfl hs.explicit fun h hc => ⟨h, hc, rfl, rfl, rfl⟩
  have hm := s.moved m
  generalize s.move m = t at hm ⊢
  cases hm with
  | stay => exact hs
  | tick | enroll | revoke | unlinkKey => exact hw _
  | send f hc => exact hs.send hc f false
  | serve e hc _ => exact hs.serve hc _ _ e
  | own o hc => exact hs.setChild hc rfl rfl rfl
  | exit _ hc _ _ => exact hs.setChild hc rfl rfl rfl
  | read hc _ hw => exact hs.read hc hw
  | @report h hc _ => exact (@Base.setChild s hs h { h with phase := .done } hc rfl rfl rfl).notice (closedNotice_notice _)

/-- Nothing of a generation to come was ever sent or read. -/
theorem Base.fresh {s : Host} (hs : Base s) :
    framesOf (s.client.gens + 1) s.client.sent = [] ∧ framesOf (s.client.gens + 1) s.client.events.pushed = [] := by
  have hle : ∀ {x : Entry} {g n : Nat}, x.src = .frame g n → g ≤ s.client.gens →
      x.src.isFrame (s.client.gens + 1) = false := by
    intro x g n h1 h2
    rw [h1]
    exact beq_false_of_ne (by omega)
  constructor
  · refine framesOf_nil_of fun x hx => ?_
    obtain ⟨g, n, h1, h2, _⟩ := hs.sent x hx
    exact hle h1 h2
  · refine framesOf_nil_of fun x hx => ?_
    rcases hs.pushed x hx with ⟨g, n, h1, h2⟩ | h
    · exact hle h1 h2
    · exact h.isFrame _

theorem Base.spawn {s : Host} (hs : Base s) (c : Call) : Base (s.spawn c) where
  gen h e := by
    obtain rfl := Option.some.inj e
    rfl
  sent x hx := by
    obtain ⟨g, n, h1, h2, _⟩ := hs.sent x hx
    refine ⟨g, n, h1, Nat.le_succ_of_le h2, fun h e hg => ?_⟩
    obtain rfl := Option.some.inj e
    simp only [Host.newHandle] at hg
    omega
  nodup := hs.nodup
  pushed x hx := by
    rcases hs.pushed x hx with ⟨g, n, h1, h2⟩ | h
    · exact .inl ⟨g, n, h1, Nat.le_succ_of_le h2⟩
    · exact .inr h
  prefix_sent := hs.prefix_sent
  live h e := by
    obtain rfl := Option.some.inj e
    show framesOf (s.client.gens + 1) s.client.events.pushed ++ [] = framesOf (s.client.gens + 1) s.client.sent
    rw [hs.fresh.1, hs.fresh.2]
    rfl
  explicit := hs.explicit

theorem Base.act {s : Host} (hs : Base s) (a : Act) : Base (s.act a) := by
  cases a with
  | move m => exact hs.move m
  | cancel =>
    refine hs.congr rfl rfl rfl hs.explicit fun h' hc => ?_
    obtain ⟨h, hh, rfl⟩ := Option.map_eq_some_iff.1 hc
    exact ⟨h, hh, rfl, rfl, rfl⟩
  | reap => exact hs.congr rfl rfl rfl hs.explicit fun h' hc => by cases hc
  | setPresence | acknowledge => exact hs.congr rfl rfl rfl hs.explicit fun h hc => ⟨h, hc, rfl, rfl, rfl⟩
  | clearEvents =>
    refine hs.congr rfl rfl rfl (fun x hx => ?_) fun h hc => ⟨h, hc, rfl, rfl, rfl⟩
    rcases List.mem_append.1 hx with hx | hx
    · exact hs.explicit x hx
    · exact s.client.events.mem_pushed_of_mem hx
  | transportFailed =>
    have hp : Base (s.setPresence false) := hs.congr rfl rfl rfl hs.explicit fun h hc => ⟨h, hc, rfl, rfl, rfl⟩
    exact hp.notice (failedNotice_notice _)
  | pollEvent =>
    exact hs.congr rfl rfl s.client.events.pop_pushed hs.explicit fun h hc => ⟨h, hc, rfl, rfl, rfl⟩
  | spawn c => exact hs.spawn c
  | writeLine c long arrives =>
    refine hs.congr rfl rfl rfl hs.explicit fun h' hc => ?_
    obtain ⟨h, hh, rfl⟩ := Option.map_eq_some_iff.1 hc
    cases arrives <;> exact ⟨h, hh, rfl, rfl, rfl⟩
  | take =>
    show Base s.take
    unfold Host.take
    split
    · rename_i h hc
      exact hs.setChild hc rfl rfl rfl
    · exact hs

theorem Base.path {s t : Host} {P : Act → Prop} (hs : Base s) (p : Host.Path P s t) : Base t :=
  p.inv (fun _ a _ h => h.act a) hs

theorem RunEnv.any (e : RunEnv) : e.Moves fun _ => True := ⟨fun _ _ => trivial, fun _ _ => trivial, fun _ _ => trivial, fun _ _ => trivial⟩

theorem Base.step {s : Host} (hs : Base s) (op : Op) : Base (s.step op) := by
  cases op with
  | run c e => exact hs.path (Host.run_path s c e.any)
  | invalidate during => exact hs.path (Host.invalidate_path (K := fun _ => True) s fun _ _ => trivial)
  | pollEvent => exact hs.act .pollEvent
  | clearEvents => exact hs.act .clearEvents
  | move m => exact hs.move m
  | files w => exact hs.congr rfl rfl rfl hs.explicit fun h hc => ⟨h, hc, rfl, rfl, rfl⟩

theorem Base.new {s : Host} (h : s.Fresh) : Base s := by
  obtain ⟨b, h⟩ := h
  constructor <;> simp [h, SessionClient.new, DropQueue.empty, framesOf]

/-! ## What every operation keeps -/

/-- Between operations the queue has frames of the child in the slot only, and of a
    generation whose reader has not finished only clear_events has discarded any. -/
structure Tidy (s : Host) : Prop where
  pure : ∀ x ∈ s.client.events.items, ∀ g n, x.src = .frame g n → ∃ h, s.client.child = some h ∧ h.gen = g
  spared : ∀ h, s.client.child = some h → h.phase ≠ .done →
    framesOf h.gen s.client.events.cleared = framesOf h.gen s.client.explicit

/-- `Tidy` reads the queue, its ledger, and the child's generation and phase. -/
theorem Tidy.congr {s t : Host} (hs : Tidy s) (hi : t.client.events.items = s.client.events.items)
    (hcl : t.client.events.cleared = s.client.events.cleared) (hx : t.client.explicit = s.client.explicit)
    (f : Handle → Handle) (hc : t.client.child = s.client.child.map f)
    (hf : ∀ h, s.client.child = some h → (f h).gen = h.gen ∧ ((f h).phase ≠ .done → h.phase ≠ .done)) : Tidy t where
  pure x hm g n hsrc := by
    obtain ⟨h, hh, hg⟩ := hs.pure x (hi ▸ hm) g n hsrc
    exact ⟨f h, by rw [hc, hh]; rfl, (hf h hh).1.trans hg⟩
  spared h' e hd := by
    rw [hc] at e
    obtain ⟨h, hh, rfl⟩ := Option.map_eq_some_iff.1 e
    rw [hcl, hx, (hf h hh).1]
    exact hs.spared h hh ((hf h hh).2 hd)

theorem Tidy.setChild {s : Host} (hs : Tidy s) {h h' : Handle} (hc : s.client.child = some h) (hg : h'.gen = h.gen)
    (hp : h'.phase ≠ .done → h.phase ≠ .done) : Tidy (s.setChild (some h')) := by
  refine hs.congr rfl rfl rfl (fun _ => h') (by rw [hc]; rfl) fun h0 h0c => ?_
  obtain rfl := Option.some.inj (hc.symm.trans h0c)
  exact ⟨hg, hp⟩

theorem Tidy.send {s : Host} (hs : Tidy s) {h : Handle} (hc : s.client.child = some h) (f : Frame) (answer : Bool) :
    Tidy (s.send h f answer) := by
  have := @Tidy.setChild s hs h { h with wire := h.wire ++ [⟨f, h.sentCount, answer⟩], sentCount := h.sentCount + 1 } hc rfl id
  exact ⟨this.pure, this.spared⟩

theorem Tidy.serve {s : Host} (hs : Tidy s) {h : Handle} (hc : s.client.child = some h) (line : Line) (rest : List Line)
    (e : ServeEnv) : Tidy (s.serve h line rest e) := by
  have hmid : ∀ (h' : Handle) (w : World) (as : List Answer), h'.gen = h.gen → h'.phase = h.phase →
      Tidy { client := { s.client with child := some h', answered := as }, world := w } := by
    intro h' w as hg hp
    have := @Tidy.setChild s hs h h' hc hg fun hd => hp ▸ hd
    exact ⟨this.pure, this.spared⟩
  unfold Host.serve
  dsimp only
  split
  · refine hmid _ _ _ ?_ ?_ <;> rfl
  · refine Tidy.send (hmid _ _ _ ?_ ?_) rfl _ true <;> rfl

theorem Tidy.read {s : Host} (hs : Tidy s) {h : Handle} (hc : s.client.child = some h) (hp : h.phase = .reading)
    (p : Packet) (rest : List Packet) : Tidy (s.read h p rest) := by
  have hnd : h.phase ≠ .done := by rw [hp]; simp
  unfold Host.read
  split
  · exact hs.setChild hc rfl fun _ => hnd
  · -- the frame pushed is one of the child in the slot
    have hset := @Tidy.setChild s hs h { h with wire := rest } hc rfl fun _ => hnd
    constructor
    · intro x hx g n hsrc
      rcases DropQueue.mem_push hx with hx | rfl
      · exact hset.pure x hx g n hsrc
      · exact ⟨_, rfl, by injection hsrc⟩
    · intro h'' e hd
      have := hset.spared h'' e hd
      show framesOf h''.gen (s.client.events.push _).cleared = _
      rw [DropQueue.push_cleared]
      exact this
  · exact hs.setChild hc rfl fun _ => hnd
  · exact hs.setChild hc rfl fun _ => hnd
  · exact hs.setChild hc rfl fun _ => hnd

/-- After a clear and a notice no frame waits. -/
theorem notice_only {q : DropQueue Entry (63 + 1)} {y x : Entry} (hy : Notice y) (hx : x ∈ (q.clear.push y).items) :
    Notice x := by
  rcases DropQueue.mem_push hx with h | h
  · simp at h
  · exact h ▸ hy

theorem Notice.not_frame {x : Entry} (h : Notice x) {g n : Nat} (hsrc : x.src = .frame g n) : False := by
  have := h.isFrame g
  simp [hsrc, Origin.isFrame] at this

theorem Tidy.move {s : Host} (hs : Tidy s) (m : Move) : Tidy (s.move m) := by
  have hm := s.moved m
  generalize s.move m = t at hm ⊢
  cases hm with
  | stay => exact hs
  | tick | enroll | revoke | unlinkKey => exact ⟨hs.pure, hs.spared⟩
  | send f hc => exact hs.send hc f false
  | serve e hc _ => exact hs.serve hc _ _ e
  | own o hc => exact hs.setChild hc rfl id
  | exit _ hc hr hd => exact hs.setChild hc rfl fun _ => hd
  | read hc hp _ => exact hs.read hc hp _ _
  | report hc hp =>
    refine ⟨fun x hx g n hsrc => ((notice_only (closedNotice_notice _) hx).not_frame hsrc).elim, fun h e hd => ?_⟩
    obtain rfl := Option.some.inj e
    exact (hd rfl).elim

theorem Tidy.moves {s : Host} (hs : Tidy s) (ms : List Move) : Tidy (s.moves ms) := by
  induction ms generalizing s with
  | nil => exact hs
  | cons m ms ih => exact ih (hs.move m)

/-- With the slot empty and only notices waiting there is nothing to keep tidy. -/
theorem Tidy.of_empty {s : Host} (hc : s.client.child = none) (h : ∀ x ∈ s.client.events.items, Notice x) : Tidy s where
  pure x hx _ _ hsrc := ((h x hx).not_frame hsrc).elim
  spared h e _ := by rw [hc] at e; cases e

theorem Tidy.failed {s : Host} (hc : s.client.child = none) : Tidy s.transportFailed :=
  .of_empty hc fun _ hx => notice_only (failedNotice_notice _) hx

theorem Tidy.retireDead {s : Host} (hs : Tidy s) (during : List Move) : Tidy (s.retireDead during) := by
  unfold Host.retireDead
  split
  · split
    · exact hs
    · exact .failed rfl
  · exact hs

theorem Tidy.spawn {s : Host} (hb : Base s) (hs : Tidy s) (hc : s.client.child = none) (c : Call) : Tidy (s.spawn c) where
  pure x hx g n hsrc := by
    obtain ⟨h, hc', _⟩ := hs.pure x hx g n hsrc
    rw [hc] at hc'
    cases hc'
  spared h e _ := by
    obtain rfl := Option.some.inj e
    have hnil : ∀ l : List Entry, (∀ x ∈ l, x ∈ s.client.events.pushed) → framesOf (s.client.gens + 1) l = [] := by
      intro l hl
      refine framesOf_nil_of fun x hx => ?_
      have hf := hb.fresh.2
      unfold framesOf at hf
      rw [List.filter_eq_nil_iff] at hf
      simpa using hf x (hl x hx)
    show framesOf (s.client.gens + 1) s.client.events.cleared = framesOf (s.client.gens + 1) s.client.explicit
    rw [hnil _ fun x hx => s.client.events.mem_pushed_of_cleared hx, hnil _ hb.explicit]

theorem Tidy.ensureChild {s : Host} (hb : Base s) (hs : Tidy s) (c : Call) (fault : Option SpawnFault) :
    Tidy (s.ensureChild c fault).1 := by
  unfold Host.ensureChild
  split
  · exact hs
  · split
    · exact hs
    · exact hs.spawn hb ‹_› c

theorem Tidy.writeLine {s : Host} (hs : Tidy s) (c : Call) (long arrives : Bool) : Tidy (s.writeLine c long arrives) := by
  refine hs.congr rfl rfl rfl _ rfl fun h _ => ?_
  cases arrives <;> exact ⟨rfl, id⟩

theorem Tidy.take {s : Host} (hs : Tidy s) : Tidy s.take := by
  unfold Host.take
  split
  · rename_i h hc
    exact hs.setChild hc rfl id
  · exact hs

theorem Tidy.receive {s : Host} (hs : Tidy s) (id : String) (cmd : Cmd) (killing : List Move) :
    Tidy (s.receive id cmd killing).1 := by
  unfold Host.receive
  split
  · exact hs
  split
  · exact .failed rfl
  split
  · split
    · exact .failed rfl
    · split
      · exact ⟨hs.take.pure, hs.take.spared⟩
      · exact hs.take
  · exact .failed rfl

theorem Tidy.run {s : Host} (hb : Base s) (hs : Tidy s) (c : Call) (e : RunEnv) : Tidy (s.run c e).1 := by
  have hr := hs.retireDead e.retiring
  have hbr := hb.path (Host.retireDead_path (c := c) s e.any.retiring)
  have he := hr.ensureChild hbr c e.spawn
  unfold Host.run
  split
  · rename_i heq
    rwa [heq] at he
  · rename_i t heq
    rw [heq] at he
    dsimp only
    split
    · exact .failed rfl
    · exact (((he.moves e.before).writeLine c e.long true).moves e.waiting).receive _ _ _

theorem invalidate_child (s : Host) (during : List Move) : (s.invalidate during).client.child = none := by
  unfold Host.invalidate
  dsimp only
  split
  · rfl
  · rename_i hc
    simpa [Host.setPresence, Host.clearEvents] using hc

theorem Tidy.invalidate (s : Host) (during : List Move) : Tidy (s.invalidate during) := by
  have hcl : (s.invalidate during).client.events.items = [] := rfl
  exact .of_empty (invalidate_child s during) fun x hx => by rw [hcl] at hx; cases hx

theorem Tidy.pollEvent {s : Host} (hs : Tidy s) : Tidy s.pollEvent.1 where
  pure x hx := hs.pure x (DropQueue.mem_pop hx)
  spared h hc hd := by
    show framesOf h.gen s.client.events.pop.1.cleared = _
    rw [DropQueue.pop_cleared]
    exact hs.spared h hc hd

theorem Tidy.clearEvents {s : Host} (hs : Tidy s) : Tidy s.clearEvents where
  pure x hx := by cases hx
  spared h hc hd := by
    show framesOf h.gen (s.client.events.cleared ++ s.client.events.items) =
      framesOf h.gen (s.client.explicit ++ s.client.events.items)
    rw [framesOf_append, framesOf_append, hs.spared h hc hd]

theorem Tidy.step {s : Host} (hb : Base s) (hs : Tidy s) (op : Op) : Tidy (s.step op) := by
  cases op with
  | run c e => exact hs.run hb c e
  | invalidate during => exact .invalidate s during
  | pollEvent => exact hs.pollEvent
  | clearEvents => exact hs.clearEvents
  | move m => exact hs.move m
  | files w => exact ⟨hs.pure, hs.spared⟩

abbrev AnyRun : Host → Prop := hosts.Reach fun _ _ => True

theorem base {s : Host} (h : AnyRun s) : Base s := h.inv (fun _ => Base.new) fun _ op hs _ => hs.step op

theorem tidy {s : Host} (h : AnyRun s) : Tidy s := by
  refine h.inv_of (J := Base) (fun _ => base) (fun s ⟨b, hb⟩ => ?_) fun _ op hb hs _ => hs.step hb op
  exact .of_empty (by rw [hb]; rfl) fun x hx => by rw [hb] at hx; cases hx

/-! ## Results -/

theorem poll_pure {s : Host} (h : AnyRun s) {x : Entry} (hx : s.pollEvent.2 = some x) :
    Notice x ∨ ∃ n, x.src = .frame s.client.gens n ∧ x ∈ s.client.sent := by
  have hmem : x ∈ s.client.events.items := DropQueue.mem_of_pop hx
  rcases (base h).pushed x (DropQueue.mem_pushed_of_mem hmem) with ⟨g, n, hsrc, _⟩ | hn
  · obtain ⟨c, hc, hg⟩ := (tidy h).pure x hmem g n hsrc
    obtain rfl : g = s.client.gens := hg.symm.trans ((base h).gen c hc)
    refine .inr ⟨n, hsrc, ?_⟩
    have hf : x ∈ framesOf s.client.gens s.client.events.pushed :=
      List.mem_filter.2 ⟨DropQueue.mem_pushed_of_mem hmem, by simp [hsrc, Origin.isFrame]⟩
    exact List.mem_of_mem_filter (((base h).prefix_sent _).subset hf)
  · exact .inl hn

theorem returned_order {s : Host} (h : AnyRun s) (g : Nat) :
    (framesOf g s.client.events.popped).Sublist (framesOf g s.client.sent) ∧ (framesOf g s.client.sent).Nodup := by
  constructor
  · have ho : s.client.events.popped.Sublist s.client.events.pushed :=
      (List.sublist_append_left _ _).trans s.client.events.order
    exact (ho.filter _).trans ((base h).prefix_sent g).sublist
  · exact (List.Nodup.of_map _ (base h).nodup).filter _

theorem frames_accounted {s : Host} (h : AnyRun s) {c : Handle} (hc : s.client.child = some c) (hd : c.phase ≠ .done) :
    (framesOf c.gen s.client.events.popped ++ (framesOf c.gen (s.client.events.dropped.map Prod.fst) ++
      (framesOf c.gen s.client.explicit ++ framesOf c.gen s.client.events.items)) ++ c.unread).Perm
    (framesOf c.gen s.client.sent) := by
  have hl := (s.client.events.ledger.filter fun x => x.src.isFrame c.gen).append_right c.unread
  rw [List.filter_append, List.filter_append, List.filter_append] at hl
  rw [← (base h).live c hc, ← (tidy h).spared c hc hd]
  exact hl

/-- Event-queue generation purity. -/
theorem queue_generation_purity {s : Host} (h : AnyRun s) :
    s.client.events.items.length ≤ 64 ∧
    (∀ x, s.pollEvent.2 = some x → Notice x ∨ ∃ n, x.src = .frame s.client.gens n ∧ x ∈ s.client.sent) ∧
    (∀ g, (framesOf g s.client.events.popped).Sublist (framesOf g s.client.sent) ∧ (framesOf g s.client.sent).Nodup) ∧
    (∀ c, s.client.child = some c → c.phase ≠ .done →
      (framesOf c.gen s.client.events.popped ++ (framesOf c.gen (s.client.events.dropped.map Prod.fst) ++
        (framesOf c.gen s.client.explicit ++ framesOf c.gen s.client.events.items)) ++ c.unread).Perm
      (framesOf c.gen s.client.sent)) ∧
    ∀ d ∈ s.client.events.dropped, (d.1 :: d.2).length = 64 :=
  ⟨s.client.events.bound, fun _ => poll_pure h, returned_order h, fun _ => frames_accounted h, s.client.events.full⟩

/-! ## A run -/

def emptyWorld : World := { disk := ⟨none, none, none⟩, whitelist := [], now := 0, confirmed := [] }

def freshHost : Host := ⟨.new .bluez, emptyWorld⟩

def ping : Call :=
  { cmd := .vendor .ping, args := [], vin := "5YJ3E1EA0PF000000", connectTimeoutSec := 20, commandTimeoutSec := 5 }

/-- The first child sends an event and answers under the wrong id; the second one sends two
    events and answers. -/
def twoChildren : List Op :=
  [.run ping { waiting := [.send (.event { kind := .presenceNear }), .read, .send (.response { id := "9" }), .read] },
   .run ping { waiting := [.send (.event { kind := .presenceNear }), .read, .send (.event { kind := .presenceFar }), .read,
                           .send (.response { id := "2", ok := true }), .read] },
   .pollEvent]

theorem twoChildren_pure :
    ((hosts.run freshHost twoChildren).pollEvent.2 = some ⟨{ kind := .presenceNear }, .frame 2 0⟩ ∧
      (hosts.run freshHost twoChildren).client.gens = 2) ∧
    (hosts.run freshHost twoChildren).client.events.items.length ≤ 64 :=
  ⟨by decide, (queue_generation_purity (s := hosts.run freshHost twoChildren)
    ((Machine.Reach.init (M := hosts) ⟨.bluez, rfl⟩).run twoChildren (.of_forall (fun _ _ => trivial) _ _))).1⟩

end ElectricEel.Client
