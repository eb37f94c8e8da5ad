/-
  ElectricEel.Client.Correlation — which response answers which request
  (session_client.rs `run` and `spawn_reader`, serve.go `serveConn`).

  The client has one request in flight at a time, and every way out of `run` other than a
  response under the request's id kills the child, its socket and its reader with it. So
  between two operations the child in the slot has no line to read and no answer on its
  way (`Quiet`), and during one there is at most the one line, or the one answer to it
  (`Await`).

  Assumed of the child: frames it writes beside its request loop may be responses too, as
  long as they carry no id the client has yet to hand out (`Move.Honest`). Nothing is
  assumed of a child that is being killed.

  Proved: a `run` that returns an outcome returns what the child in the slot answered to
  the very request this `run` wrote, after it was written; a `run` that returns an error
  leaves no child (`request_response_correlation`, together with the loop's side of it).
-/
import ElectricEel.Child.Serve
import ElectricEel.Client.Queue

namespace ElectricEel.Client

open Lib Commands Wire Child

/-! ## Responses on their way -/

def Packet.response (p : Packet) : Option Response :=
  match p.frame with
  | .response r => some r
  | _ => none

/-- The responses `run` has not taken, the reader's channel first. -/
def Handle.replies (h : Handle) : List Response := (h.rx ++ h.wire).filterMap Packet.response

/-- A response under no id from `next` on. -/
def Stray (next : Nat) (r : Response) : Prop := ∀ n, next ≤ n → r.id ≠ toString n

def Move.Honest (next : Nat) : Move → Prop
  | .send (.response r) => Stray next r
  | _ => True

def Op.Honest (next : Nat) : Op → Prop
  | .run _ e => (∀ m ∈ e.before, m.Honest next) ∧ ∀ m ∈ e.waiting, m.Honest next
  | .move m => m.Honest next
  | _ => True

/-! ## What a move does to the lines and the responses -/

/-- How the child's unread lines and untaken responses change in one move. -/
inductive Exchange (s : Host) (h : Handle) (m : Move) (t : Host) (h' : Handle) : Prop
  | none : h'.inbox = h.inbox → h'.replies = h.replies → t.client.answered = s.client.answered → Exchange s h m t h'
  | sent (r : Response) : m = .send (.response r) → h'.inbox = h.inbox → h'.replies = h.replies ++ [r] →
      t.client.answered = s.client.answered → Exchange s h m t h'
  | served (line : Line) (rest : List Line) (resp : Option Response) : h.inbox = line :: rest →
      h'.inbox = (if line = .tooLong then [] else rest) → h'.replies = h.replies ++ resp.toList →
      t.client.answered = s.client.answered ++ Host.answers h line resp → resp.map Response.id = answerId line →
      Exchange s h m t h'

theorem read_replies (s : Host) {h : Handle} {p : Packet} {rest : List Packet} (hw : h.wire = p :: rest) :
    ∃ h', (s.read h p rest).client.child = some h' ∧ h'.gen = h.gen ∧ h'.inbox = h.inbox ∧ h'.replies = h.replies := by
  unfold Host.read
  split
  · refine ⟨_, rfl, rfl, rfl, ?_⟩
    show ((h.rx ++ [p]) ++ rest).filterMap _ = _
    rw [Handle.replies, hw, List.append_assoc]
    rfl
  all_goals
    rename_i hf
    refine ⟨_, rfl, rfl, rfl, ?_⟩
    simp [Handle.replies, hw, Packet.response, hf]

theorem read_answered (s : Host) (h : Handle) (p : Packet) (rest : List Packet) :
    (s.read h p rest).client.answered = s.client.answered := by
  unfold Host.read
  split <;> rfl

theorem send_replies (h : Handle) (f : Frame) (seq : Nat) (answer : Bool) (n : Nat) :
    Handle.replies { h with wire := h.wire ++ [⟨f, seq, answer⟩], sentCount := n } =
      h.replies ++ (Packet.response ⟨f, seq, answer⟩).toList := by
  show (h.rx ++ (h.wire ++ [_])).filterMap _ = (h.rx ++ h.wire).filterMap _ ++ _
  rw [← List.append_assoc, List.filterMap_append]
  cases hp : Packet.response ⟨f, seq, answer⟩ <;> simp [hp]

theorem serve_exchange {s : Host} {h : Handle} {line : Line} {rest : List Line} (hin : h.inbox = line :: rest) (e : ServeEnv)
    (m : Move) : ∃ h', (s.serve h line rest e).client.child = some h' ∧ h'.gen = h.gen ∧
      Exchange s h m (s.serve h line rest e) h' := by
  have hid := serveLine_id s.world h.proc line e
  unfold Host.serve
  dsimp only
  split
  · rename_i hr
    refine ⟨_, rfl, rfl, .served line rest none hin rfl ?_ ?_ ?_⟩
    · simp [Handle.replies]
    · rw [hr]
    · rw [← hid, hr]
  · rename_i resp hr
    refine ⟨_, rfl, rfl, .served line rest (some resp) hin rfl ?_ ?_ ?_⟩
    · exact send_replies _ (.response resp) _ true _
    · show s.client.answered ++ _ = _
      rw [hr]
    · rw [← hid, hr]

theorem move_exchange {s : Host} (m : Move) {h' : Handle} (hc : (s.move m).client.child = some h') :
    ∃ h, s.client.child = some h ∧ h'.gen = h.gen ∧ Exchange s h m (s.move m) h' := by
  have hm := s.moved m
  generalize s.move m = t at hm hc ⊢
  cases hm with
  | stay | tick | enroll | revoke | unlinkKey => exact ⟨h', hc, rfl, .none rfl rfl rfl⟩
  | @send h f hh =>
    obtain rfl := Option.some.inj hc
    have hr := send_replies h f h.sentCount false (h.sentCount + 1)
    refine ⟨h, hh, rfl, ?_⟩
    cases f with
    | response r => exact .sent r rfl rfl hr rfl
    | _ => exact .none rfl (hr.trans (List.append_nil _)) rfl
  | @serve h line rest e hh hin =>
    obtain ⟨h1, hc1, hg, hx⟩ := serve_exchange (s := s) hin e (.serve e)
    obtain rfl := Option.some.inj (hc1.symm.trans hc)
    exact ⟨h, hh, hg, hx⟩
  | @own h o hh =>
    obtain rfl := Option.some.inj hc
    exact ⟨h, hh, rfl, .none rfl rfl rfl⟩
  | @exit h _ hh _ _ =>
    obtain rfl := Option.some.inj hc
    exact ⟨h, hh, rfl, .none rfl rfl rfl⟩
  | @read h p rest hh _ hw =>
    obtain ⟨h1, hc1, hg, hi, hr⟩ := read_replies s hw
    obtain rfl := Option.some.inj (hc1.symm.trans hc)
    exact ⟨h, hh, hg, .none hi hr (read_answered s h p rest)⟩
  | @report h hh _ =>
    obtain rfl := Option.some.inj hc
    exact ⟨h, hh, rfl, .none rfl rfl rfl⟩

theorem moves_gen {s : Host} {ms : List Move} {h' : Handle} (hc : (s.moves ms).client.child = some h') :
    ∃ h, s.client.child = some h ∧ h'.gen = h.gen := by
  induction ms generalizing s with
  | nil => exact ⟨h', hc, rfl⟩
  | cons m ms ih =>
    obtain ⟨h1, hh1, hg1⟩ := ih hc
    obtain ⟨h, hh, hg, _⟩ := move_exchange m hh1
    exact ⟨h, hh, hg1.trans hg⟩

/-! ## What only grows -/

/-- How one move changes the queue. -/
inductive Heard (s t : Host) : Prop
  | nothing : t.client.events = s.client.events → Heard s t
  | frame (h : Handle) (e : SessionEvent) (n : Nat) : s.client.child = some h → h.phase = .reading →
      t.client.events = s.client.events.push ⟨e, .frame h.gen n⟩ → Heard s t
  | closed (h : Handle) : s.client.child = some h → h.phase = .reporting →
      t.client.events = s.client.events.clear.push (closedNotice h.gen) → Heard s t

theorem serve_events (s : Host) (h : Handle) (line : Line) (rest : List Line) (e : ServeEnv) :
    (s.serve h line rest e).client.events = s.client.events := by
  unfold Host.serve
  dsimp only
  split <;> rfl

theorem move_heard (s : Host) (m : Move) : Heard s (s.move m) := by
  have hm := s.moved m
  generalize s.move m = t at hm ⊢
  cases hm with
  | serve e hc hin => exact .nothing (serve_events s _ _ _ e)
  | @read h p rest hc hp hw =>
    unfold Host.read
    split
    · exact .nothing rfl
    · exact .frame h _ p.seq hc hp rfl
    all_goals exact .nothing rfl
  | report hc hp => exact .closed _ hc hp rfl
  | _ => exact .nothing rfl

/-- The logs only grow, and so do the ids, the generations and what the queue lost; the
    backend is the one the client was made with. -/
structure Grown (s t : Host) : Prop where
  answered : s.client.answered <+: t.client.answered
  writes : s.client.writes <+: t.client.writes
  pushed : s.client.events.pushed <+: t.client.events.pushed
  lost : s.client.events.lost ≤ t.client.events.lost
  nextId : s.client.nextId ≤ t.client.nextId
  gens : s.client.gens ≤ t.client.gens
  bleBackend : t.client.bleBackend = s.client.bleBackend

theorem Grown.refl (s : Host) : Grown s s :=
  ⟨List.prefix_rfl, List.prefix_rfl, List.prefix_rfl, Nat.le_refl _, Nat.le_refl _, Nat.le_refl _, rfl⟩

theorem Grown.trans {s t u : Host} (h : Grown s t) (h' : Grown t u) : Grown s u where
  answered := h.answered.trans h'.answered
  writes := h.writes.trans h'.writes
  pushed := h.pushed.trans h'.pushed
  lost := Nat.le_trans h.lost h'.lost
  nextId := Nat.le_trans h.nextId h'.nextId
  gens := Nat.le_trans h.gens h'.gens
  bleBackend := h'.bleBackend.trans h.bleBackend

theorem read_writes (s : Host) (h : Handle) (p : Packet) (rest : List Packet) :
    (s.read h p rest).client.writes = s.client.writes := by
  unfold Host.read
  split <;> rfl

/-- What a move leaves alone. -/
structure Host.Logs (s t : Host) : Prop where
  answered : s.client.answered <+: t.client.answered
  writes : t.client.writes = s.client.writes
  nextId : t.client.nextId = s.client.nextId
  gens : t.client.gens = s.client.gens
  bleBackend : t.client.bleBackend = s.client.bleBackend

theorem serve_logs (s : Host) (h : Handle) (line : Line) (rest : List Line) (e : ServeEnv) :
    s.Logs (s.serve h line rest e) := by
  unfold Host.serve
  dsimp only
  split <;> exact ⟨List.prefix_append _ _, rfl, rfl, rfl, rfl⟩

theorem move_logs (s : Host) (m : Move) : s.Logs (s.move m) := by
  have hm := s.moved m
  generalize s.move m = t at hm ⊢
  cases hm with
  | serve e hc hin => exact serve_logs s _ _ _ e
  | read hc hp hw =>
    refine ⟨?_, read_writes _ _ _ _, ?_, ?_, ?_⟩
    · exact (read_answered s _ _ _).symm ▸ List.prefix_rfl
    all_goals
      unfold Host.read
      split <;> rfl
  | _ => exact ⟨List.prefix_rfl, rfl, rfl, rfl, rfl⟩

theorem Grown.move (s : Host) (m : Move) : Grown s (s.move m) := by
  have h := move_logs s m
  have hq : s.client.events.pushed <+: (s.move m).client.events.pushed ∧ s.client.events.lost ≤ (s.move m).client.events.lost := by
    cases move_heard s m with
    | nothing hq => rw [hq]; exact ⟨List.prefix_rfl, Nat.le_refl _⟩
    | frame _ _ _ _ _ hq => rw [hq, DropQueue.push_pushed]; exact ⟨List.prefix_append _ _, DropQueue.lost_push _ _⟩
    | closed _ _ _ hq =>
      rw [hq, DropQueue.push_pushed]
      exact ⟨List.prefix_append _ _, Nat.le_trans (DropQueue.lost_clear _) (DropQueue.lost_push _ _)⟩
  exact ⟨h.answered, h.writes.symm ▸ List.prefix_rfl, hq.1, hq.2, Nat.le_of_eq h.nextId.symm, Nat.le_of_eq h.gens.symm, h.bleBackend⟩

/-- A step that changes only the child, the presence flag or the world. -/
theorem Grown.of_client {s t : Host} (ha : t.client.answered = s.client.answered) (hw : t.client.writes = s.client.writes)
    (he : t.client.events = s.client.events) (hn : t.client.nextId = s.client.nextId) (hg : s.client.gens ≤ t.client.gens)
    (hb : t.client.bleBackend = s.client.bleBackend) : Grown s t :=
  ⟨ha ▸ List.prefix_rfl, hw ▸ List.prefix_rfl, he ▸ List.prefix_rfl, he ▸ Nat.le_refl _, hn ▸ Nat.le_refl _, hg, hb⟩

theorem Grown.act (s : Host) (a : Act) : Grown s (s.act a) := by
  cases a with
  | move m => exact .move s m
  | clearEvents =>
    exact ⟨List.prefix_rfl, List.prefix_rfl, List.prefix_rfl, DropQueue.lost_clear _, Nat.le_refl _, Nat.le_refl _, rfl⟩
  | transportFailed =>
    refine ⟨List.prefix_rfl, List.prefix_rfl, ?_, Nat.le_trans (DropQueue.lost_clear _) (DropQueue.lost_push _ _), Nat.le_refl _,
      Nat.le_refl _, rfl⟩
    show _ <+: (DropQueue.push _ _).pushed
    rw [DropQueue.push_pushed]
    exact List.prefix_append _ _
  | pollEvent =>
    refine ⟨List.prefix_rfl, List.prefix_rfl, ?_, Nat.le_of_eq (DropQueue.lost_pop _).symm, Nat.le_refl _, Nat.le_refl _, rfl⟩
    show _ <+: (DropQueue.pop _).1.pushed
    exact (DropQueue.pop_pushed _).symm ▸ List.prefix_rfl
  | writeLine c long arrives =>
    exact ⟨List.prefix_rfl, List.prefix_append _ _, List.prefix_rfl, Nat.le_refl _, Nat.le_succ _, Nat.le_refl _, rfl⟩
  | spawn c => exact .of_client rfl rfl rfl rfl (Nat.le_succ _) rfl
  | take =>
    show Grown s s.take
    unfold Host.take
    split
    · exact .of_client rfl rfl rfl rfl (Nat.le_refl _) rfl
    · exact .refl s
  | _ => exact .of_client rfl rfl rfl rfl (Nat.le_refl _) rfl

theorem Grown.path {s t : Host} {P : Act → Prop} (p : Host.Path P s t) : Grown s t :=
  p.inv (I := fun t => Grown s t) (fun t a _ h => h.trans (.act t a)) (.refl s)

theorem Grown.step (s : Host) (op : Op) : Grown s (s.step op) := by
  cases op with
  | run c e => exact .path (Host.run_path s c e.any)
  | invalidate during => exact .path (Host.invalidate_path (K := fun _ => True) s fun _ _ => trivial)
  | pollEvent => exact .act s .pollEvent
  | clearEvents => exact .act s .clearEvents
  | move m => exact .act s (.move m)
  | files w => exact .of_client rfl rfl rfl rfl (Nat.le_refl _) rfl

@[simp] theorem moves_nextId (s : Host) (ms : List Move) : (s.moves ms).client.nextId = s.client.nextId := by
  induction ms generalizing s with
  | nil => rfl
  | cons m ms ih => exact (ih _).trans (move_logs s m).nextId

@[simp] theorem moves_writes (s : Host) (ms : List Move) : (s.moves ms).client.writes = s.client.writes := by
  induction ms generalizing s with
  | nil => rfl
  | cons m ms ih => exact (ih _).trans (move_logs s m).writes

@[simp] theorem kill_nextId (s : Host) (during : List Move) : (s.kill during).client.nextId = s.client.nextId := by
  show ((s.cancel.moves during).move .report).client.nextId = _
  rw [(move_logs _ _).nextId, moves_nextId]
  rfl

/-! ## Between operations -/

/-- The child has no line to read, and what it sent answers no request to come. -/
def Handle.Idle (next : Nat) (h : Handle) : Prop := h.inbox = [] ∧ ∀ r ∈ h.replies, Stray next r

def Quiet (s : Host) : Prop := ∀ h, s.client.child = some h → h.Idle s.client.nextId

theorem toString_ne_empty (n : Nat) : toString n ≠ "" := by
  intro h
  have := congrArg String.length h
  simp [Nat.toString_eq_repr] at this

theorem Stray.mono {n m : Nat} {r : Response} (h : Stray n r) (hm : n ≤ m) : Stray m r := fun k hk => h k (Nat.le_trans hm hk)

theorem Move.Honest.mono {n m : Nat} {x : Move} (h : x.Honest n) (hm : n ≤ m) : x.Honest m := by
  unfold Move.Honest at h ⊢
  split at h
  · exact h.mono hm
  · trivial

theorem Handle.Idle.exchange {next : Nat} {s t : Host} {h h' : Handle} {m : Move} (hi : h.Idle next) (hm : m.Honest next)
    (hx : Exchange s h m t h') : h'.Idle next := by
  cases hx with
  | none h1 h2 => exact ⟨h1.trans hi.1, by rw [h2]; exact hi.2⟩
  | sent r h0 h1 h2 =>
    subst h0
    refine ⟨h1.trans hi.1, ?_⟩
    rw [h2]
    intro r' hr'
    rcases List.mem_append.1 hr' with hr' | hr'
    · exact hi.2 r' hr'
    · exact List.mem_singleton.1 hr' ▸ hm
  | served line rest resp h1 => rw [hi.1] at h1; cases h1

theorem Quiet.move {s : Host} (hs : Quiet s) {m : Move} (hm : m.Honest s.client.nextId) : Quiet (s.move m) := by
  intro h' hc
  obtain ⟨h, hh, _, hx⟩ := move_exchange m hc
  rw [(move_logs s m).nextId]
  exact (hs h hh).exchange hm hx

theorem Quiet.moves {s : Host} (hs : Quiet s) {ms : List Move} (hm : ∀ m ∈ ms, m.Honest s.client.nextId) :
    Quiet (s.moves ms) := by
  induction ms generalizing s with
  | nil => exact hs
  | cons m ms ih =>
    refine ih (hs.move (hm m List.mem_cons_self)) fun m' h' => ?_
    rw [(move_logs s m).nextId]
    exact hm m' (List.mem_cons_of_mem _ h')

theorem Quiet.of_none {s : Host} (h : s.client.child = none) : Quiet s := fun h' hc => by rw [h] at hc; cases hc

theorem Quiet.retireDead {s : Host} (hs : Quiet s) (during : List Move) : Quiet (s.retireDead during) := by
  unfold Host.retireDead
  split
  · split
    · exact hs
    · exact .of_none rfl
  · exact hs

@[simp] theorem retireDead_nextId (s : Host) (during : List Move) :
    (s.retireDead during).client.nextId = s.client.nextId := by
  unfold Host.retireDead
  split
  · split
    · rfl
    · exact kill_nextId s during
  · rfl

theorem Quiet.ensureChild {s : Host} (hs : Quiet s) (c : Call) (fault : Option SpawnFault) :
    Quiet (s.ensureChild c fault).1 := by
  unfold Host.ensureChild
  split
  · exact hs
  · split
    · exact hs
    · intro h hc
      obtain rfl := Option.some.inj hc
      exact ⟨rfl, fun r hr => by cases hr⟩

theorem ensureChild_nextId (s : Host) (c : Call) (fault : Option SpawnFault) :
    (s.ensureChild c fault).1.client.nextId = s.client.nextId := by
  unfold Host.ensureChild
  split
  · rfl
  · split <;> rfl

theorem ensureChild_error {s t : Host} {c : Call} {fault : Option SpawnFault} {err : SessionError}
    (h : s.ensureChild c fault = (t, .error err)) : t.client.child = none := by
  unfold Host.ensureChild at h
  split at h
  · cases h
  · split at h
    · cases h
      assumption
    · cases h

/-! ## During an operation -/

/-- The line of request `req` is unread, its answer (one of `answered`) is on its way, or,
    when the child gave up on an oversized line, neither. -/
inductive Handle.Await (next : Nat) (req : Request) (answered : List Answer) (h : Handle) : Prop
  | idle : h.Idle next → Await next req answered h
  | unread (line : Line) : h.inbox = [line] → line = .tooLong ∨ line = .request req → (∀ r ∈ h.replies, Stray next r) →
      Await next req answered h
  | replied (earlier : List Response) (r : Response) (later : List Response) : h.inbox = [] →
      h.replies = earlier ++ r :: later → (∀ r ∈ earlier, Stray next r) → (∀ r ∈ later, Stray next r) →
      ⟨h.gen, req, r⟩ ∈ answered → Await next req answered h

theorem Handle.Await.exchange {next : Nat} {req : Request} {s t : Host} {h h' : Handle} {m : Move} {old : Nat}
    (ho : old ≤ s.client.answered.length) (ha : h.Await next req (s.client.answered.drop old)) (hm : m.Honest next)
    (hg : h'.gen = h.gen) (hx : Exchange s h m t h') : h'.Await next req (t.client.answered.drop old) := by
  have hstray : ∀ {l : List Response} {r : Response}, (∀ r ∈ l, Stray next r) → Stray next r → ∀ r' ∈ l ++ [r], Stray next r' := by
    intro l r hl hr r' hr'
    rcases List.mem_append.1 hr' with hr' | hr'
    · exact hl r' hr'
    · exact List.mem_singleton.1 hr' ▸ hr
  cases ha with
  | idle hi => exact .idle (hi.exchange hm hx)
  | unread line h1 h2 h3 =>
    cases hx with
    | none g1 g2 => exact .unread line (g1.trans h1) h2 (by rw [g2]; exact h3)
    | sent r g0 g1 g2 =>
      subst g0
      exact .unread line (g1.trans h1) h2 (by rw [g2]; exact hstray h3 hm)
    | served line' rest resp g1 g2 g3 g4 g5 =>
      rw [h1] at g1
      injection g1 with hl hrest
      subst hl
      subst hrest
      rcases h2 with rfl | rfl
      · -- the scanner gave up
        simp only [answerId, Option.map_eq_none_iff] at g5
        subst g5
        exact .idle ⟨g2, by rw [g3, Option.toList_none, List.append_nil]; exact h3⟩
      · simp only [answerId, Option.map_eq_some_iff] at g5
        obtain ⟨r, rfl, _⟩ := g5
        refine .replied h.replies r [] g2 g3 h3 (fun _ hr => by cases hr) ?_
        rw [g4, List.drop_append_of_le_length ho, hg]
        exact List.mem_append_right _ (List.mem_singleton.2 rfl)
  | replied earlier r later h1 h2 h3 h4 h5 =>
    cases hx with
    | none g1 g2 g3 => exact .replied earlier r later (g1.trans h1) (g2.trans h2) h3 h4 (by rw [g3, hg]; exact h5)
    | sent r' g0 g1 g2 g3 =>
      subst g0
      refine .replied earlier r (later ++ [r']) (g1.trans h1) ?_ h3 (hstray h4 hm) (by rw [g3, hg]; exact h5)
      rw [g2, h2, List.append_assoc, List.cons_append]
    | served line rest resp g1 => rw [h1] at g1; cases g1

/-- `Await` of the child in the slot, the answer being later than the first `old` ones. -/
def Await (next : Nat) (req : Request) (old : Nat) (s : Host) : Prop :=
  old ≤ s.client.answered.length ∧ ∀ h, s.client.child = some h → h.Await next req (s.client.answered.drop old)

theorem Await.moves {next : Nat} {req : Request} {old : Nat} {s : Host} (hs : Await next req old s) {ms : List Move}
    (hm : ∀ m ∈ ms, m.Honest next) : Await next req old (s.moves ms) := by
  induction ms generalizing s with
  | nil => exact hs
  | cons m ms ih =>
    refine ih ⟨Nat.le_trans hs.1 (move_logs s m).answered.length_le, fun h' hc => ?_⟩ fun m' h' => hm m' (List.mem_cons_of_mem _ h')
    obtain ⟨h, hh, hg, hx⟩ := move_exchange m hc
    exact (hs.2 h hh).exchange hs.1 (hm m List.mem_cons_self) hg hx

theorem Await.written {s : Host} (hs : Quiet s) (c : Call) (long : Bool) {old : Nat} (ho : old ≤ s.client.answered.length) :
    Await s.client.nextId (s.request c) old (s.writeLine c long true) := by
  refine ⟨ho, fun h' hc => ?_⟩
  obtain ⟨h, hh, rfl⟩ := Option.map_eq_some_iff.1 hc
  obtain ⟨hi, hr⟩ := hs h hh
  refine .unread (if long then Line.tooLong else .request (s.request c)) ?_ ?_ hr
  · show h.inbox ++ _ = _
    rw [hi]
    rfl
  · cases long
    · exact .inr rfl
    · exact .inl rfl

theorem take_child {s : Host} {h : Handle} (hc : s.client.child = some h) :
    s.take.client.child = some { h with rx := h.rx.tail } := by
  unfold Host.take
  rw [hc]
  rfl

theorem take_answered (s : Host) : s.take.client.answered = s.client.answered := by
  unfold Host.take
  split <;> rfl

theorem take_nextId (s : Host) : s.take.client.nextId = s.client.nextId := by
  unfold Host.take
  split <;> rfl

theorem take_writes (s : Host) : s.take.client.writes = s.client.writes := by
  unfold Host.take
  split <;> rfl

/-- A response under the awaited id is the answer, and nothing but strays is behind it. -/
theorem Handle.Await.taken {next : Nat} {req : Request} {answered : List Answer} {h : Handle} {p : Packet} {rest : List Packet}
    {r : Response} (ha : h.Await next req answered) (hrx : h.rx = p :: rest) (hf : p.frame = .response r)
    (hid : r.id = toString next) : ⟨h.gen, req, r⟩ ∈ answered ∧ Handle.Idle (next + 1) { h with rx := h.rx.tail } := by
  have hrep : h.replies = r :: (rest ++ h.wire).filterMap Packet.response := by
    rw [Handle.replies, hrx, List.cons_append, List.filterMap_cons]
    simp [Packet.response, hf]
  have hnot : ∀ {l : List Response}, (∀ r ∈ l, Stray next r) → r ∉ l := fun hl hr => hl r hr next (Nat.le_refl _) hid
  have hhead : r ∈ h.replies := by rw [hrep]; exact List.mem_cons_self
  cases ha with
  | idle hi => exact (hnot hi.2 hhead).elim
  | unread line h1 h2 h3 => exact (hnot h3 hhead).elim
  | replied earlier r' later h1 h2 h3 h4 h5 =>
    rw [hrep] at h2
    cases earlier with
    | nil =>
      injection h2 with hr hl
      subst hr
      refine ⟨h5, h1, fun r'' hr'' => ?_⟩
      have hmem : r'' ∈ later := by
        rw [← hl]
        simpa [Handle.replies, hrx] using hr''
      exact (h4 r'' hmem).mono (Nat.le_succ _)
    | cons r'' earlier =>
      injection h2 with hr hl
      exact (hnot h3 (hr ▸ List.mem_cons_self)).elim

theorem Await.receive {next : Nat} {req : Request} {old : Nat} {s : Host} (hs : Await next req old s)
    (hn : s.client.nextId = next + 1) (cmd : Cmd) (killing : List Move) :
    Quiet (s.receive (toString next) cmd killing).1 ∧
    (∀ err, (s.receive (toString next) cmd killing).2 = .error err → (s.receive (toString next) cmd killing).1.client.child = none) ∧
    ∀ out, (s.receive (toString next) cmd killing).2 = .ok out → ∃ resp h h', s.client.child = some h ∧
      (s.receive (toString next) cmd killing).1.client.child = some h' ∧ h'.gen = h.gen ∧ out = resp.outcome ∧
      ⟨h.gen, req, resp⟩ ∈ (s.receive (toString next) cmd killing).1.client.answered.drop old := by
  unfold Host.receive
  split
  · rename_i hc
    exact ⟨.of_none hc, fun _ _ => hc, fun _ => nofun⟩
  rename_i h hc
  split
  · exact ⟨.of_none rfl, fun _ _ => rfl, fun _ => nofun⟩
  rename_i p rest hrx
  split
  · rename_i r hf
    split
    · exact ⟨.of_none rfl, fun _ _ => rfl, fun _ => nofun⟩
    rename_i hid
    obtain ⟨hans, hidle⟩ := (hs.2 h hc).taken hrx hf (not_not.1 hid)
    have hq : Quiet s.take := by
      intro h' hc'
      obtain rfl := Option.some.inj ((take_child hc).symm.trans hc')
      rw [take_nextId, hn]
      exact hidle
    have hans' : ⟨h.gen, req, r⟩ ∈ s.take.client.answered.drop old := by rw [take_answered]; exact hans
    split
    · refine ⟨hq, fun _ => nofun, fun out ho => ?_⟩
      cases ho
      exact ⟨r, h, _, hc, take_child hc, rfl, rfl, hans'⟩
    · refine ⟨hq, fun _ => nofun, fun out ho => ?_⟩
      cases ho
      exact ⟨r, h, _, hc, take_child hc, rfl, rfl, hans'⟩
  · exact ⟨.of_none rfl, fun _ _ => rfl, fun _ => nofun⟩

/-! ## Every operation -/

/-- What one `run` guarantees about what it returns. -/
structure Correlated (s : Host) (c : Call) (e : RunEnv) : Prop where
  quiet : Quiet (s.run c e).1
  error : ∀ err, (s.run c e).2 = .error err → (s.run c e).1.client.child = none
  ok : ∀ out, (s.run c e).2 = .ok out → ∃ resp h, (s.run c e).1.client.child = some h ∧ out = resp.outcome ∧
    ⟨h.gen, s.request c⟩ ∈ (s.run c e).1.client.writes.drop s.client.writes.length ∧
    ⟨h.gen, s.request c, resp⟩ ∈ (s.run c e).1.client.answered.drop s.client.answered.length

theorem receive_writes {s : Host} {id : String} {cmd : Cmd} {killing : List Move} {out : RunOutcome}
    (h : (s.receive id cmd killing).2 = .ok out) : (s.receive id cmd killing).1.client.writes = s.client.writes := by
  unfold Host.receive at h ⊢
  split
  · rfl
  rename_i hc
  simp only [hc] at h ⊢
  split
  · rename_i hrx
    simp [hrx, Host.fail] at h
  rename_i hrx
  simp only [hrx] at h ⊢
  split
  · rename_i hf
    simp only [hf] at h ⊢
    split
    · rename_i hid
      simp [hid, Host.fail] at h
    · split
      · exact take_writes s
      · exact take_writes s
  · rename_i hf
    split at h
    · rename_i r hr
      exact (hf r hr).elim
    · cases h

theorem Quiet.run {s : Host} (hs : Quiet s) (c : Call) (e : RunEnv) (hb : ∀ m ∈ e.before, m.Honest s.client.nextId)
    (hw : ∀ m ∈ e.waiting, m.Honest s.client.nextId) : Correlated s c e := by
  have hq := (hs.retireDead e.retiring).ensureChild c e.spawn
  have hn : ((s.retireDead e.retiring).ensureChild c e.spawn).1.client.nextId = s.client.nextId := by
    rw [ensureChild_nextId, retireDead_nextId]
  have hgrown := Grown.path ((Host.retireDead_path (c := c) s e.any.retiring).trans
    (Host.ensureChild_path (s.retireDead e.retiring) c e.spawn))
  rcases hr : (s.retireDead e.retiring).ensureChild c e.spawn with ⟨t, err | _⟩
  · have hrun : s.run c e = (t, .error err) := by unfold Host.run; rw [hr]
    have hc := ensureChild_error hr
    exact ⟨by rw [hrun]; exact .of_none hc, fun _ _ => by rw [hrun]; exact hc, fun out ho => by rw [hrun] at ho; cases ho⟩
  rw [hr] at hq hn hgrown
  dsimp only at hq hn hgrown
  have hqm : Quiet (t.moves e.before) := hq.moves (by rw [hn]; exact hb)
  have hgm : Grown s (t.moves e.before) := hgrown.trans (.path (Host.moves_path (P := fun _ => True) t fun _ _ => trivial))
  have hnm : (t.moves e.before).client.nextId = s.client.nextId := by rw [moves_nextId, hn]
  cases hwo : e.write with
  | failed arrived =>
    have hrun : s.run c e = ((t.moves e.before).writeLine c e.long arrived).fail e.killing .brokenPipe := by
      unfold Host.run; rw [hr]; simp only [hwo]
    exact ⟨by rw [hrun]; exact .of_none rfl, fun _ _ => by rw [hrun]; rfl, fun out ho => by rw [hrun] at ho; cases ho⟩
  | ok =>
    have hrun : s.run c e = (((t.moves e.before).writeLine c e.long true).moves e.waiting).receive
        (toString s.client.nextId) c.cmd e.killing := by
      unfold Host.run; rw [hr]; simp only [hwo, hnm]
    have hreq : (t.moves e.before).request c = s.request c := by unfold Host.request; rw [hnm]
    have hawait : Await s.client.nextId (s.request c) s.client.answered.length
        (((t.moves e.before).writeLine c e.long true).moves e.waiting) := by
      refine Await.moves ?_ hw
      have := Await.written hqm c e.long hgm.answered.length_le
      rwa [hnm, hreq] at this
    obtain ⟨h1, h2, h3⟩ := hawait.receive (by rw [moves_nextId]; show (t.moves e.before).client.nextId + 1 = _; rw [hnm]) c.cmd e.killing
    refine ⟨by rw [hrun]; exact h1, by rw [hrun]; exact h2, fun out ho => ?_⟩
    rw [hrun] at ho ⊢
    obtain ⟨resp, h, h', hc, hc', hg, hout, hans⟩ := h3 out ho
    refine ⟨resp, h', hc', hout, ?_, hg ▸ hans⟩
    rw [receive_writes ho, moves_writes]
    show _ ∈ ((t.moves e.before).client.writes ++ _).drop _
    rw [List.drop_append_of_le_length hgm.writes.length_le, hreq]
    refine List.mem_append_right _ ?_
    -- the child that answered is the one the line was written to
    obtain ⟨h1, hh1, hg1⟩ := moves_gen hc
    obtain ⟨h0, hh0, rfl⟩ := Option.map_eq_some_iff.1 hh1
    rw [hh0, hg.trans hg1]
    exact List.mem_singleton.2 rfl

theorem Quiet.step {s : Host} (hs : Quiet s) (op : Op) (ho : op.Honest s.client.nextId) : Quiet (s.step op) := by
  cases op with
  | run c e => exact (hs.run c e ho.1 ho.2).quiet
  | invalidate during => exact .of_none (invalidate_child s during)
  | pollEvent => exact hs
  | clearEvents => exact hs
  | move m => exact hs.move ho
  | files w => exact hs

/-- Runs in which no child forges a response. -/
abbrev HonestRun : Host → Prop := hosts.Reach fun s op => op.Honest s.client.nextId

theorem quiet {s : Host} (h : HonestRun s) : Quiet s :=
  h.inv (fun s ⟨b, hb⟩ => .of_none (by rw [hb]; rfl)) fun _ op hs ho => hs.step op ho

/-- Request/response correlation on both sides of the socket. -/
theorem request_response_correlation :
    (∀ (w : World) (s : Sess) (script : List Turn),
      (serveConn w s script).2.2.filterMap responseId = (linesRead script).filterMap answerId) ∧
    ∀ {s : Host}, HonestRun s → ∀ (c : Call) (e : RunEnv), (Op.run c e).Honest s.client.nextId →
      (∀ out, (s.run c e).2 = .ok out → ∃ resp h, (s.run c e).1.client.child = some h ∧ out = resp.outcome ∧
        ⟨h.gen, s.request c⟩ ∈ (s.run c e).1.client.writes.drop s.client.writes.length ∧
        ⟨h.gen, s.request c, resp⟩ ∈ (s.run c e).1.client.answered.drop s.client.answered.length) ∧
      ∀ err, (s.run c e).2 = .error err → (s.run c e).1.client.child = none := by
  refine ⟨responseIds_serveConn, fun h c e he => ?_⟩
  have := (quiet h).run c e he.1 he.2
  exact ⟨this.ok, this.error⟩

/-- The child answers ping with an event and a stray response around its answer. -/
def pingServed : RunEnv :=
  { waiting := [.send (.event { kind := .presenceNear }), .read, .serve {}, .read, .send (.response { id := "" })] }

theorem pingServed_honest : (Op.run ping pingServed).Honest freshHost.client.nextId := by
  refine ⟨fun _ => nofun, fun m hm => ?_⟩
  simp only [pingServed, List.mem_cons, List.not_mem_nil, or_false] at hm
  rcases hm with rfl | rfl | rfl | rfl | rfl
  · trivial
  · trivial
  · trivial
  · trivial
  · exact fun n _ => (toString_ne_empty n).symm

theorem pingServed_correlated :
    ((freshHost.run ping pingServed).2 = .ok ⟨false, .str "", "load private key: no usable key", 1⟩) ∧
    ∃ resp h, (freshHost.run ping pingServed).1.client.child = some h ∧
      (⟨false, .str "", "load private key: no usable key", 1⟩ : RunOutcome) = resp.outcome ∧
      ⟨h.gen, freshHost.request ping⟩ ∈ (freshHost.run ping pingServed).1.client.writes.drop freshHost.client.writes.length ∧
      ⟨h.gen, freshHost.request ping, resp⟩ ∈
        (freshHost.run ping pingServed).1.client.answered.drop freshHost.client.answered.length :=
  ⟨by decide, (request_response_correlation.2 (.init ⟨.bluez, rfl⟩) ping pingServed pingServed_honest).1 _ (by decide)⟩

end ElectricEel.Client
