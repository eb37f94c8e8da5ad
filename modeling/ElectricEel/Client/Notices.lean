/-
  ElectricEel.Client.Notices — a child that is lost leaves a notice (session_client.rs
  `spawn_reader`, `transport_failed`, `run`).

  Presence ends unseen in two ways: the child's socket closes, and its reader pushes
  presence_stopped on its way out; or a `run` fails or finds the reader gone, kills the
  child and pushes presence_stopped itself. Either push comes after a clear, so the notice
  is alone in the queue. It leaves the queue by a poll or by a clear of invalidate or
  handle_resume, or it is the head of a full queue when the next child's reader pushes.
  That child need not run presence (`Handle.Calm`): its authentication responder serves
  ordinary commands too, and 64 events of it push the notice out (`Host.Drowned`).

  `Host.Attended`: presence is on for all the client knows, and the slot's reader tells
  when it ends. `Host.Told`: a notice waits, or is to come, or the slot's child has pushed
  it out.

  Proved: moves, the `run` of any other command and a poll that returns something else
  leave a wake-up where there was one (`moves_wakes`, `run_wakes`, `pollEvent_wakes`); a
  presence-start answered OK leaves presence attended (`run_attended`); unless the notice
  was pushed out, a wake-up is a started child, a notice in the queue or one its reader is
  about to push (`Wakes.trigger`).
-/
import ElectricEel.Client.Slot

namespace ElectricEel.Client

open Lib Commands Wire Child

/-! ## Notices and who still pushes them -/

/-- A presence_stopped event waits in the queue. -/
def Host.Noticed (s : Host) : Prop := ∃ x ∈ s.client.events.items, x.ev.kind = .presenceStopped

/-- A presence_stopped was the head of the full queue when one more event of the child came, and
    the rest were events of the child too. -/
def Host.PushedOut (s : Host) (h : Handle) : Prop :=
  ∃ d ∈ s.client.events.dropped, d.1.ev.kind = .presenceStopped ∧ ∀ x ∈ d.2, x.src.isFrame h.gen = true ∧ x.ev.kind ≠ .presenceStopped

/-- The slot's child runs no presence and has pushed a presence_stopped out. -/
def Host.Drowned (s : Host) : Prop := ∃ h, s.client.child = some h ∧ h.proc.presenceGeneration = 0 ∧ s.PushedOut h

/-- The child neither ran presence so far nor has a line before it that stirs it. -/
structure Handle.Calm (h : Handle) : Prop where
  generation : h.proc.presenceGeneration = 0
  inbox : ∀ req, .request req ∈ h.inbox → stirs req = false

/-- The reader reports when it leaves, and once it has finished its notice waits. -/
structure Host.Reports (s : Host) (h : Handle) : Prop where
  cancelled : h.cancelled = false
  done : h.phase = .done → s.Noticed

structure Host.Attended (s : Host) : Prop where
  flag : s.client.presenceActive = true
  child : ∃ h, s.client.child = some h ∧ s.Reports h

structure Host.Told (s : Host) : Prop where
  empty : s.client.child = none → s.Noticed
  reports : ∀ h, s.client.child = some h → s.Reports h
  /-- A notice of an earlier child waits, or this one has pushed it out. -/
  reading : ∀ h, s.client.child = some h → h.phase = .reading → h.Calm ∧ (s.Noticed ∨ s.PushedOut h)

/-- Presence that was started does not end without a wake-up. -/
def Host.Wakes (started : Bool) (s : Host) : Prop := s.Told ∨ started = true ∧ s.Attended

theorem noticed_push_clear (s : Host) {x : Entry} (hx : x.ev.kind = .presenceStopped) :
    (s.setEvents (s.client.events.clear.push x)).Noticed := ⟨x, DropQueue.mem_push_self _ _, hx⟩

theorem Host.Noticed.quiet {s t : Host} (hn : s.Noticed) (hq : t.client.events = s.client.events) : t.Noticed := by
  unfold Host.Noticed
  rw [hq]
  exact hn

theorem Host.Reports.quiet {s t : Host} {h h' : Handle} (hr : s.Reports h) (hk : h'.cancelled = h.cancelled) (hp : h'.phase = h.phase)
    (hq : t.client.events = s.client.events) : t.Reports h' :=
  ⟨hk.trans hr.cancelled, fun hd => (hr.done (hp ▸ hd)).quiet hq⟩

theorem Host.PushedOut.mono {s t : Host} {h h' : Handle} (hs : s.PushedOut h)
    (hp : s.client.events.dropped <+: t.client.events.dropped) (hg : h'.gen = h.gen) : t.PushedOut h' := by
  obtain ⟨d, hd, hk, hrest⟩ := hs
  exact ⟨d, hp.subset hd, hk, fun x hx => hg ▸ hrest x hx⟩

/-! ## Runs of the client -/

/-- What AnyRun keeps of the queue. -/
structure Orderly (s : Host) : Prop where
  base : Base s
  tidy : Tidy s

namespace Orderly

variable {s : Host}

theorem move (ho : Orderly s) (m : Move) : Orderly (s.move m) := ⟨ho.base.move m, ho.tidy.move m⟩

theorem moves (ho : Orderly s) (ms : List Move) : Orderly (s.moves ms) :=
  ⟨ho.base.path (P := fun _ => True) (Host.moves_path s fun _ _ => trivial), ho.tidy.moves ms⟩

theorem retireDead (ho : Orderly s) (c : Call) (during : List Move) : Orderly (s.retireDead during) :=
  ⟨ho.base.path (Host.retireDead_path (c := c) (K := fun _ => True) s fun _ _ => trivial), ho.tidy.retireDead during⟩

theorem spawn (ho : Orderly s) (hc : s.client.child = none) (c : Call) : Orderly (s.spawn c) := ⟨ho.base.spawn c, ho.tidy.spawn ho.base hc c⟩

theorem writeLine (ho : Orderly s) (c : Call) (long arrives : Bool) : Orderly (s.writeLine c long arrives) :=
  ⟨ho.base.act (.writeLine c long arrives), ho.tidy.writeLine c long arrives⟩

theorem take (ho : Orderly s) : Orderly s.take := ⟨ho.base.act .take, ho.tidy.take⟩

theorem acknowledge (ho : Orderly s) (a : Ack) : Orderly (s.acknowledge a) :=
  ⟨ho.base.act (.acknowledge a), ho.tidy.congr rfl rfl rfl id (by rw [Option.map_id]; rfl) fun _ _ => ⟨rfl, id⟩⟩

theorem fail (ho : Orderly s) (c : Call) (killing : List Move) (err : SessionError) : Orderly (s.fail killing err).1 :=
  ⟨ho.base.path (Host.fail_path (c := c) (K := fun _ => True) s err fun _ _ => trivial), .failed rfl⟩

end Orderly

theorem orderly {s : Host} (h : AnyRun s) : Orderly s := ⟨base h, tidy h⟩

/-! ## One move -/

/-- What a move makes of the slot's child: it reports on, and one still reading is as calm as before. -/
structure Stride (s t : Host) (h h' : Handle) : Prop where
  child : t.client.child = some h'
  cancelled : h'.cancelled = h.cancelled
  reports : s.Reports h → t.Reports h'
  reading : h'.phase = .reading → h.phase = .reading
  calm : h'.phase = .reading → h.Calm → h'.Calm
  told : h'.phase = .reading → s.Noticed ∨ s.PushedOut h → t.Noticed ∨ t.PushedOut h'

namespace Stride

variable {s t u : Host} {h h' h'' : Handle}

theorem refl (hc : s.client.child = some h) : Stride s s h h := ⟨hc, rfl, id, id, fun _ => id, fun _ => id⟩

theorem trans (hs : Stride s t h h') (ht : Stride t u h' h'') : Stride s u h h'' where
  child := ht.child
  cancelled := ht.cancelled.trans hs.cancelled
  reports hr := ht.reports (hs.reports hr)
  reading hp := hs.reading (ht.reading hp)
  calm hp hk := ht.calm hp (hs.calm (ht.reading hp) hk)
  told hp hn := ht.told hp (hs.told (ht.reading hp) hn)

/-- A step that leaves the queue and the reader alone. -/
theorem quiet (hc : t.client.child = some h') (hk : h'.cancelled = h.cancelled) (hp : h'.phase = h.phase) (hg : h'.gen = h.gen)
    (hq : t.client.events = s.client.events) (hcalm : h.Calm → h'.Calm) : Stride s t h h' := by
  refine ⟨hc, hk, fun hr => hr.quiet hk hp hq, fun hr => hp ▸ hr, fun _ => hcalm, fun _ ht => ?_⟩
  rcases ht with ht | ht
  · exact .inl (ht.quiet hq)
  · exact .inr (ht.mono (hq ▸ List.prefix_rfl) hg)

end Stride

theorem Handle.Calm.of_eq {h h' : Handle} (hk : h.Calm) (hg : h'.proc.presenceGeneration = h.proc.presenceGeneration)
    (hi : ∀ l ∈ h'.inbox, l ∈ h.inbox) : h'.Calm :=
  ⟨hg.trans hk.generation, fun req hr => hk.inbox req (hi _ hr)⟩

theorem send_stride {s : Host} {h : Handle} (f : Frame) (answer : Bool) :
    Stride s (s.send h f answer) h { h with wire := h.wire ++ [⟨f, h.sentCount, answer⟩], sentCount := h.sentCount + 1 } :=
  .quiet rfl rfl rfl rfl rfl fun hk => hk.of_eq rfl fun _ hl => hl

theorem serve_stride {s : Host} {h : Handle} {line : Line} {rest : List Line} (hin : h.inbox = line :: rest) (e : ServeEnv) :
    ∃ h', Stride s (s.serve h line rest e) h h' := by
  have hmid : ∀ (h' : Handle) (w : World) (as : List Answer),
      h' = { h with inbox := if line = .tooLong then [] else rest, proc := (serveLine s.world h.proc line e).1 } →
      Stride s { client := { s.client with child := some h', answered := as }, world := w } h h' := by
    rintro h' w as rfl
    refine .quiet rfl rfl rfl rfl rfl fun hk => ?_
    refine ⟨?_, fun req hr => ?_⟩
    · refine (serveLine_presenceGeneration (fun req hl => hk.inbox req ?_) _ _ _).trans hk.generation
      rw [hin, hl]
      exact List.mem_cons_self
    · refine hk.inbox req ?_
      dsimp only at hr
      split at hr
      · cases hr
      · rw [hin]
        exact List.mem_cons_of_mem _ hr
  unfold Host.serve
  dsimp only
  split
  · exact ⟨_, hmid _ _ _ rfl⟩
  · exact ⟨_, (hmid _ _ _ rfl).trans (send_stride _ true)⟩

/-- An event pushed leaves the notice in the queue, or pushes it out. -/
theorem push_told {s t : Host} (ho : Orderly s) {h h' : Handle} (hc : s.client.child = some h) (hg : h'.gen = h.gen) (x : Entry)
    (hq : t.client.events = s.client.events.push x) (hn : s.Noticed) : t.Noticed ∨ t.PushedOut h' := by
  obtain ⟨z, hz, hk⟩ := hn
  rcases DropQueue.push_cases s.client.events x with ⟨hi, _⟩ | ⟨y, rest, _, hitems, hi, hd⟩
  · refine .inl ⟨z, ?_, hk⟩
    rw [hq, hi]
    exact List.mem_append_left _ hz
  · by_cases hrest : ∃ w ∈ rest, w.ev.kind = .presenceStopped
    · obtain ⟨w, hw, hwk⟩ := hrest
      refine .inl ⟨w, ?_, hwk⟩
      rw [hq, hi]
      exact List.mem_append_left _ hw
    · have hno : ∀ w ∈ rest, w.ev.kind ≠ .presenceStopped := fun w hw hwk => hrest ⟨w, hw, hwk⟩
      rw [hitems] at hz
      have hzy : z = y := (List.mem_cons.1 hz).resolve_right fun hm => hno z hm hk
      refine .inr ⟨(y, rest), ?_, hzy ▸ hk, fun w hw => ⟨?_, hno w hw⟩⟩
      · rw [hq, hd]
        exact List.mem_append_right _ (List.mem_singleton_self _)
      · -- what waits behind it is no notice, so it is a frame of the slot's child
        have hwi : w ∈ s.client.events.items := hitems ▸ List.mem_cons_of_mem _ hw
        rcases ho.base.pushed w (DropQueue.mem_pushed_of_mem hwi) with ⟨g, n, hsrc, _⟩ | hnotice
        · obtain ⟨h0, hc0, hg0⟩ := ho.tidy.pure w hwi g n hsrc
          obtain rfl := Option.some.inj (hc0.symm.trans hc)
          rw [hsrc, hg, ← hg0]
          exact beq_self_eq_true _
        · exact (hno w hw hnotice.1).elim

theorem read_stride {s : Host} (ho : Orderly s) {h : Handle} (hc : s.client.child = some h) (hp : h.phase = .reading)
    (p : Packet) (rest : List Packet) : ∃ h', Stride s (s.read h p rest) h h' := by
  have hbroke : ∀ h', h' = { h with wire := rest, phase := .broke } → Stride s (s.setChild (some h')) h h' := by
    rintro h' rfl
    exact ⟨rfl, rfl, fun hr => ⟨hr.cancelled, nofun⟩, nofun, nofun, nofun⟩
  unfold Host.read
  split
  · exact ⟨_, .quiet rfl rfl rfl rfl rfl fun hk => hk.of_eq rfl fun _ hl => hl⟩
  · -- the push may drop the notice, but then the queue was full of the child's events
    rename_i e hf
    refine ⟨_, rfl, rfl, fun hr => ⟨hr.cancelled, fun hd => ?_⟩, id, fun _ hk => hk.of_eq rfl fun _ hl => hl, fun _ ht => ?_⟩
    · exact absurd (hp.symm.trans hd) (by decide)
    · rcases ht with ht | ht
      · exact push_told ho hc (by rfl) _ rfl ht
      · exact .inr (ht.mono (DropQueue.dropped_prefix_push _ _) (by rfl))
  · exact ⟨_, .quiet rfl rfl rfl rfl rfl fun hk => hk.of_eq rfl fun _ hl => hl⟩
  · exact ⟨_, hbroke _ rfl⟩
  · exact ⟨_, hbroke _ rfl⟩

theorem exit_stride {s : Host} {h : Handle} (hd : h.phase ≠ .done) :
    Stride s (s.setChild (some { h with phase := h.exiting })) h { h with phase := h.exiting } := by
  have hread : h.exiting ≠ .reading := by
    unfold Handle.exiting
    split
    · decide
    · decide
    · split <;> decide
    · rename_i hp _ _
      exact hp
  refine ⟨rfl, rfl, fun hrep => ⟨hrep.cancelled, fun he => ?_⟩, fun he => absurd he hread, fun he => absurd he hread, fun he => absurd he hread⟩
  -- a reader that is not cancelled goes on to report
  dsimp only at he
  unfold Handle.exiting at he
  split at he
  · cases he
  · cases he
  · rw [hrep.cancelled] at he
    cases he
  · exact absurd he hd

theorem report_stride {s : Host} {h : Handle} : Stride s (s.report h) h { h with phase := .done } :=
  ⟨rfl, rfl, fun hr => ⟨hr.cancelled, fun _ => noticed_push_clear _ rfl⟩, nofun, nofun, nofun⟩

theorem move_stride {s : Host} (ho : Orderly s) {h : Handle} (hc : s.client.child = some h) (m : Move) : ∃ h', Stride s (s.move m) h h' := by
  have hm := s.moved m
  generalize s.move m = t at hm ⊢
  cases hm with
  | stay => exact ⟨h, .refl hc⟩
  | tick | enroll | revoke | unlinkKey => exact ⟨h, .quiet hc rfl rfl rfl rfl id⟩
  | send f hc' =>
    obtain rfl := Option.some.inj (hc'.symm.trans hc)
    exact ⟨_, send_stride f false⟩
  | serve e hc' hin =>
    obtain rfl := Option.some.inj (hc'.symm.trans hc)
    exact serve_stride hin e
  | own o hc' =>
    obtain rfl := Option.some.inj (hc'.symm.trans hc)
    exact ⟨_, .quiet rfl rfl rfl rfl rfl fun hk => hk.of_eq (Sess.own_presenceGeneration _ _ o) fun _ hl => hl⟩
  | exit m hc' _ hd =>
    obtain rfl := Option.some.inj (hc'.symm.trans hc)
    exact ⟨_, exit_stride hd⟩
  | read hc' hp hw =>
    obtain rfl := Option.some.inj (hc'.symm.trans hc)
    exact read_stride ho hc hp _ _
  | report hc' _ =>
    obtain rfl := Option.some.inj (hc'.symm.trans hc)
    exact ⟨_, report_stride⟩

/-! ## Moves and the client's own steps -/

theorem moves_stride {s : Host} (ho : Orderly s) {h : Handle} (hc : s.client.child = some h) (ms : List Move) :
    ∃ h', Stride s (s.moves ms) h h' := by
  induction ms generalizing s h with
  | nil => exact ⟨h, .refl hc⟩
  | cons m ms ih =>
    obtain ⟨h1, hs1⟩ := move_stride ho hc m
    obtain ⟨h2, hs2⟩ := ih (ho.move m) hs1.child
    exact ⟨h2, hs1.trans hs2⟩

section

variable {s t : Host} {started : Bool} {h h' : Handle}

theorem Stride.wakes (hs : Stride s t h h') (hc : s.client.child = some h) (hf : t.client.presenceActive = s.client.presenceActive)
    (hw : s.Wakes started) : t.Wakes started := by
  have hchild : ∀ x, t.client.child = some x → x = h' := fun x hx => Option.some.inj (hx.symm.trans hs.child)
  rcases hw with ht | ⟨hst, ha⟩
  · refine .inl ⟨fun hn => ?_, fun x hx => ?_, fun x hx hp => ?_⟩
    · rw [hs.child] at hn
      cases hn
    · rw [hchild x hx]
      exact hs.reports (ht.reports h hc)
    · rw [hchild x hx] at hp ⊢
      obtain ⟨hk, hn⟩ := ht.reading h hc (hs.reading hp)
      exact ⟨hs.calm hp hk, hs.told hp hn⟩
  · obtain ⟨x, hx, hr⟩ := ha.child
    obtain rfl := Option.some.inj (hx.symm.trans hc)
    exact .inr ⟨hst, hf.trans ha.flag, h', hs.child, hs.reports hr⟩

/-- With the slot empty there is a notice. -/
theorem Host.Wakes.noticed (hw : s.Wakes started) (hc : s.client.child = none) : s.Noticed := by
  rcases hw with ht | ⟨_, ha⟩
  · exact ht.empty hc
  · obtain ⟨x, hx, _⟩ := ha.child
    rw [hc] at hx
    cases hx

theorem told_of_empty (hc : s.client.child = none) (hn : s.Noticed) : s.Told where
  empty _ := hn
  reports x hx := by rw [hc] at hx; cases hx
  reading x hx := by rw [hc] at hx; cases hx

/-- `Wakes` reads nothing outside the parent process. -/
theorem Host.Wakes.of_client (hw : s.Wakes started) (hc : t.client = s.client) : t.Wakes started := by
  obtain ⟨client, w⟩ := s
  obtain ⟨client', w'⟩ := t
  obtain rfl : client' = client := hc
  have hrep : ∀ x, Host.Reports ⟨client', w⟩ x → Host.Reports ⟨client', w'⟩ x := fun x hx => ⟨hx.cancelled, hx.done⟩
  rcases hw with ht | ⟨hst, ha⟩
  · exact .inl ⟨ht.empty, fun x hx => hrep x (ht.reports x hx), ht.reading⟩
  · obtain ⟨x, hx, hr⟩ := ha.child
    exact .inr ⟨hst, ha.flag, x, hx, hrep x hr⟩

theorem moves_wakes (ho : Orderly s) (ms : List Move) (hw : s.Wakes started) : (s.moves ms).Wakes started := by
  cases hc : s.client.child with
  | none =>
    have hm := moves_noChild hc ms
    exact hw.of_client hm
  | some h =>
    obtain ⟨h', hs⟩ := moves_stride ho hc ms
    exact hs.wakes hc (moves_same s ms).presenceActive hw

/-- Kill, clear, push. -/
theorem transportFailed_told (hc : s.client.child = none) : s.transportFailed.Told :=
  told_of_empty hc (noticed_push_clear (s.setPresence false) rfl)

theorem retireDead_wakes (during : List Move) (hw : s.Wakes started) : (s.retireDead during).Wakes started := by
  unfold Host.retireDead
  split
  · split
    · exact hw
    · exact .inl (transportFailed_told rfl)
  · exact hw

theorem spawn_wakes (c : Call) (hc : s.client.child = none) (hw : s.Wakes started) : (s.spawn c).Wakes started := by
  have hn : (s.spawn c).Noticed := hw.noticed hc
  refine .inl ⟨nofun, fun x hx => ?_, fun x hx _ => ?_⟩
  · obtain rfl := Option.some.inj hx
    exact ⟨rfl, nofun⟩
  · obtain rfl := Option.some.inj hx
    exact ⟨⟨rfl, fun _ => nofun⟩, .inl hn⟩

theorem take_wakes (hw : s.Wakes started) : s.take.Wakes started := by
  unfold Host.take
  split
  · rename_i x hc
    have hs : Stride s (s.setChild (some { x with rx := x.rx.tail })) x { x with rx := x.rx.tail } :=
      .quiet rfl rfl rfl rfl rfl fun hk => hk.of_eq rfl fun _ hl => hl
    exact hs.wakes hc (by rfl) hw
  · exact hw

end

/-- The call is no presence request, and no keygen that stops presence first. -/
structure Call.Calm (c : Call) : Prop where
  start : c.cmd ≠ .presenceStart
  stop : c.cmd ≠ .presenceStop
  keygen : c.cmd = .keygen → c.args.contains "-f" = false

theorem Call.Calm.request {c : Call} (h : c.Calm) (s : Host) : stirs (s.request c) = false := by
  have hk : (c.cmd == .keygen && c.args.contains "-f") = false := by
    by_cases hc : c.cmd = .keygen
    · rw [h.keygen hc, Bool.and_false]
    · rw [beq_false_of_ne hc, Bool.false_and]
  unfold stirs
  rw [beq_false_of_ne (show (s.request c).cmd ≠ .presenceStart from h.start),
    beq_false_of_ne (show (s.request c).cmd ≠ .presenceStop from h.stop)]
  exact hk

theorem writeLine_wakes {s : Host} {started : Bool} {c : Call} (h : c.Calm) (long arrives : Bool) (hw : s.Wakes started) :
    (s.writeLine c long arrives).Wakes started := by
  cases hc : s.client.child with
  | none =>
    refine .inl (told_of_empty ?_ (hw.noticed hc))
    show s.client.child.map _ = none
    rw [hc]
    rfl
  | some x =>
    have hcalm : x.Calm → Handle.Calm { x with inbox := x.inbox ++ [if long then .tooLong else .request (s.request c)] } := by
      intro hk
      refine ⟨hk.generation, fun req hr => ?_⟩
      rcases List.mem_append.1 hr with hr | hr
      · exact hk.inbox req hr
      · cases long
        · cases List.mem_singleton.1 hr
          exact h.request s
        · cases List.mem_singleton.1 hr
    cases arrives with
    | false =>
      have hs : Stride s (s.writeLine c long false) x x := by
        refine .quiet ?_ rfl rfl rfl rfl id
        show s.client.child.map _ = some x
        rw [hc]
        rfl
      exact hs.wakes hc (by rfl) hw
    | true =>
      have hs : Stride s (s.writeLine c long true) x { x with inbox := x.inbox ++ [if long then .tooLong else .request (s.request c)] } := by
        refine .quiet ?_ rfl rfl rfl rfl hcalm
        show s.client.child.map _ = some _
        rw [hc]
        rfl
      exact hs.wakes hc (by rfl) hw

/-! ## One run -/

/-- What the steps of a `run` keep, the run keeps; a child is killed and reported in one. -/
theorem run_keeps {I : Host → Prop} {s : Host} {c : Call} {e : RunEnv} (hretire : I (s.retireDead e.retiring))
    (hspawn : (s.retireDead e.retiring).client.child = none → I ((s.retireDead e.retiring).spawn c)) (hmoves : ∀ u ms, I u → I (u.moves ms))
    (hwrite : ∀ u arrives, I u → I (u.writeLine c e.long arrives)) (htake : ∀ u, I u → I u.take)
    (hack : ∀ u a, a.cmd = c.cmd → c.cmd = .presenceStart ∨ c.cmd = .presenceStop → I u → I (u.acknowledge a))
    (hfail : ∀ u err, I u → I (u.fail e.killing err).1) : I (s.run c e).1 := by
  cases hr : s.reaches e with
  | false =>
    obtain ⟨err, hrun⟩ := run_unreached hr c
    rw [hrun]
    exact hretire
  | true =>
    have hensure : I ((s.retireDead e.retiring).ensureChild c e.spawn).1 := by
      unfold Host.ensureChild
      split
      · exact hretire
      · rename_i hc
        rw [spawn_none hr hc]
        exact hspawn hc
    have hbefore : I (s.beforeWrite c e) := hmoves _ _ hensure
    rw [run_reached hr]
    unfold Host.afterWrite
    split
    · exact hfail _ _ (hwrite _ _ hbefore)
    · have hrec := received (((s.beforeWrite c e).writeLine c e.long true).moves e.waiting) (toString s.client.nextId) c.cmd e.killing
      have hsent := hmoves _ e.waiting (hwrite _ true hbefore)
      generalize Host.receive _ _ _ _ = r at hrec ⊢
      cases hrec with
      | noChild _ => exact hsent
      | failed t err ht _ =>
        rcases ht with rfl | rfl
        · exact hfail _ _ hsent
        · exact hfail _ _ (htake _ hsent)
      | answered x p rest r _ _ _ _ =>
        dsimp only
        split
        · rename_i hcmd
          simp only [Bool.and_eq_true, Bool.or_eq_true, beq_iff_eq] at hcmd
          exact hack _ _ rfl hcmd.2 (htake _ hsent)
        · exact htake _ hsent

/-- The same on top of what the client's runs keep of the queue. -/
theorem run_keeps_orderly {P : Host → Prop} {s : Host} (ho : Orderly s) {c : Call} {e : RunEnv} (hretire : P (s.retireDead e.retiring))
    (hspawn : (s.retireDead e.retiring).client.child = none → P ((s.retireDead e.retiring).spawn c))
    (hmoves : ∀ u ms, Orderly u → P u → P (u.moves ms)) (hwrite : ∀ u arrives, P u → P (u.writeLine c e.long arrives))
    (htake : ∀ u, P u → P u.take)
    (hack : ∀ u a, a.cmd = c.cmd → c.cmd = .presenceStart ∨ c.cmd = .presenceStop → P u → P (u.acknowledge a))
    (hfail : ∀ (u : Host) (err : SessionError), P (u.fail e.killing err).1) : P (s.run c e).1 := by
  have hret := ho.retireDead c e.retiring
  have h := run_keeps (I := fun u => Orderly u ∧ P u) (c := c) ⟨hret, hretire⟩ (fun hn => ⟨hret.spawn hn c, hspawn hn⟩)
    (fun u ms hu => ⟨hu.1.moves ms, hmoves u ms hu.1 hu.2⟩) (fun u arrives hu => ⟨hu.1.writeLine c e.long arrives, hwrite u arrives hu.2⟩)
    (fun u hu => ⟨hu.1.take, htake u hu.2⟩) (fun u a hcmd hpres hu => ⟨hu.1.acknowledge a, hack u a hcmd hpres hu.2⟩)
    (fun u err hu => ⟨hu.1.fail c e.killing err, hfail u err⟩)
  exact h.2

/-- No call but a presence request takes the wake-up away. -/
theorem run_wakes {s : Host} {started : Bool} (ho : Orderly s) {c : Call} (hc : c.Calm) (e : RunEnv) (hw : s.Wakes started) :
    (s.run c e).1.Wakes started := by
  refine run_keeps_orderly ho (retireDead_wakes e.retiring hw) (fun hn => spawn_wakes c hn (retireDead_wakes e.retiring hw))
    (fun u ms hu => moves_wakes hu ms) (fun u arrives => writeLine_wakes hc e.long arrives) (fun u => take_wakes)
    (fun u a _ hcmd _ => ?_) fun u err => .inl (transportFailed_told rfl)
  rcases hcmd with hcmd | hcmd
  · exact (hc.start hcmd).elim
  · exact (hc.stop hcmd).elim

/-! ## A presence-start -/

/-- Between operations nobody has cancelled the slot's child. -/
def Host.Uncancelled (s : Host) : Prop := ∀ h, s.client.child = some h → h.cancelled = false

theorem writeLine_child {s : Host} {c : Call} {long arrives : Bool} {h' : Handle} (hc : (s.writeLine c long arrives).client.child = some h') :
    ∃ h, s.client.child = some h ∧ h'.cancelled = h.cancelled ∧ h'.phase = h.phase := by
  obtain ⟨h, hh, rfl⟩ := Option.map_eq_some_iff.1 hc
  refine ⟨h, hh, ?_, ?_⟩ <;> split <;> rfl

theorem take_phase {s : Host} {h' : Handle} (hc : s.take.client.child = some h') :
    ∃ h, s.client.child = some h ∧ h'.cancelled = h.cancelled ∧ h'.phase = h.phase := by
  unfold Host.take at hc
  split at hc
  · rename_i h hh
    cases hc
    exact ⟨h, hh, rfl, rfl⟩
  · exact ⟨h', hc, rfl, rfl⟩

theorem take_events (s : Host) : s.take.client.events = s.client.events := by
  unfold Host.take
  split <;> rfl

/-- The child a run leaves in the slot was alive or new when the run looked, so its reader
    still reports or has. -/
theorem run_reports {s : Host} (ho : Orderly s) (hu : s.Uncancelled) (c : Call) (e : RunEnv) {h : Handle}
    (hh : (s.run c e).1.client.child = some h) : (s.run c e).1.Reports h := by
  have hretire : ∀ x, (s.retireDead e.retiring).client.child = some x → (s.retireDead e.retiring).Reports x := by
    unfold Host.retireDead
    split
    · rename_i x hx
      split
      · rename_i ha
        intro y hy
        obtain rfl := Option.some.inj (hy.symm.trans hx)
        refine ⟨hu y hx, fun hd => ?_⟩
        rw [Handle.alive, hd] at ha
        cases ha
      · intro y hy
        cases hy
    · rename_i hn
      intro y hy
      rw [hn] at hy
      cases hy
  refine run_keeps_orderly (P := fun u => ∀ x, u.client.child = some x → u.Reports x) ho hretire (fun _ x hx => ?_)
    (fun u ms hou hI x hx => ?_) (fun u arrives hI x hx => ?_) (fun u hI x hx => ?_)
    (fun u a _ _ hI x hx => (hI x hx).quiet rfl rfl rfl) (fun u err x hx => by cases hx) h hh
  · obtain rfl := Option.some.inj hx
    exact ⟨rfl, fun hphase => by cases hphase⟩
  · cases hc : u.client.child with
    | none =>
      rw [moves_noChild hc ms, hc] at hx
      cases hx
    | some y =>
      obtain ⟨z, hs⟩ := moves_stride hou hc ms
      obtain rfl := Option.some.inj (hs.child.symm.trans hx)
      exact hs.reports (hI y hc)
  · obtain ⟨y, hy, hk, hp⟩ := writeLine_child hx
    exact (hI y hy).quiet hk hp rfl
  · obtain ⟨y, hy, hk, hp⟩ := take_phase hx
    exact (hI y hy).quiet hk hp (take_events u)

/-- Presence started: the client's flag is set, and the reader tells when it ends. -/
theorem run_attended {s : Host} (ho' : Orderly s) (hu : s.Uncancelled) {c : Call} (hc : c.cmd = .presenceStart) {e : RunEnv} {out : RunOutcome}
    (ho : (s.run c e).2 = .ok out) (hok : out.ok = true) : (s.run c e).1.Attended := by
  have hrep := fun h hh => run_reports (h := h) ho' hu c e hh
  have hr := ran s c e
  generalize s.run c e = r at hr hrep ho
  cases hr with
  | failed err _ => cases ho
  | @answered t x resp seq hopen =>
    obtain rfl := Except.ok.inj ho
    have hok' : resp.ok = true := hok
    rw [hc, hok', if_pos (by rfl)] at hrep ⊢
    obtain ⟨h, hh⟩ : ∃ h, t.client.child = some h := by
      cases hn : t.client.child with
      | none =>
        have hslot := hopen.slot
        rw [slot_none.2 hn] at hslot
        cases hslot
      | some h => exact ⟨h, rfl⟩
    exact ⟨rfl, h, hh, hrep h hh⟩

theorem uncancelled {s : Host} (h : AnyRun s) : s.Uncancelled := by
  refine h.inv_of (J := Orderly) (fun _ hs => orderly hs) ?_ fun s op ho hu _ => ?_
  · rintro s ⟨b, hb⟩ h hc
    rw [hb] at hc
    cases hc
  · cases op with
    | run c e => exact fun h hh => (run_reports ho hu c e hh).cancelled
    | invalidate during =>
      intro h hc
      exact nomatch (invalidate_child s during).symm.trans hc
    | move m =>
      intro h' hc'
      cases hc : s.client.child with
      | none =>
        have hn : (s.moves [m]).client.child = none := by rw [moves_noChild hc [m], hc]
        exact nomatch hn.symm.trans hc'
      | some h =>
        obtain ⟨x, hs⟩ := move_stride ho hc m
        obtain rfl := Option.some.inj (hs.child.symm.trans hc')
        exact hs.cancelled.trans (hu h hc)
    | pollEvent | clearEvents | files => exact hu

/-! ## Whose notices wait -/

/-- A frame of the generation, or the notice of its reader. -/
def Origin.of (g : Nat) : Origin → Prop
  | .frame g' _ | .closed g' => g' = g
  | _ => False

/-- Every presence_stopped in the queue is the slot's child's own. -/
def Host.Owned (s : Host) : Prop :=
  ∀ h, s.client.child = some h → ∀ x ∈ s.client.events.items, x.ev.kind = .presenceStopped → x.src.of h.gen

theorem owned_of_silent {s : Host} (hn : ¬ s.Noticed) : s.Owned := fun _ _ x hx hk => (hn ⟨x, hx, hk⟩).elim

/-- `Owned` reads the queue and the child's generation. -/
theorem Host.Owned.congr {s t : Host} (ho : s.Owned) (hq : t.client.events = s.client.events)
    (hc : ∀ h', t.client.child = some h' → ∃ h, s.client.child = some h ∧ h'.gen = h.gen) : t.Owned := by
  intro h' hc' x hx hk
  obtain ⟨h, hh, hg⟩ := hc h' hc'
  rw [hq] at hx
  exact hg ▸ ho h hh x hx hk

theorem move_owned {s : Host} (m : Move) (ho : s.Owned) : (s.move m).Owned := by
  intro h' hc' x hx hk
  obtain ⟨h, hc, hg, _⟩ := move_exchange m hc'
  rw [hg]
  cases move_heard s m with
  | nothing hq =>
    rw [hq] at hx
    exact ho h hc x hx hk
  | frame y e n hy _ hq =>
    obtain rfl := Option.some.inj (hy.symm.trans hc)
    rw [hq] at hx
    rcases DropQueue.mem_push hx with hx | rfl
    · exact ho y hc x hx hk
    · rfl
  | closed y hy _ hq =>
    obtain rfl := Option.some.inj (hy.symm.trans hc)
    rw [hq] at hx
    rcases DropQueue.mem_push hx with hx | rfl
    · cases hx
    · rfl

theorem moves_owned {s : Host} (ms : List Move) (ho : s.Owned) : (s.moves ms).Owned := by
  induction ms generalizing s with
  | nil => exact ho
  | cons m ms ih => exact ih (move_owned m ho)

theorem writeLine_owned {s : Host} (c : Call) (long arrives : Bool) (ho : s.Owned) : (s.writeLine c long arrives).Owned := by
  refine ho.congr rfl fun h' hc => ?_
  obtain ⟨h, hh, rfl⟩ := Option.map_eq_some_iff.1 hc
  refine ⟨h, hh, ?_⟩
  split <;> rfl

theorem take_owned {s : Host} (ho : s.Owned) : s.take.Owned := by
  refine ho.congr (take_events s) fun h' hc => ?_
  unfold Host.take at hc
  split at hc
  · rename_i h hh
    cases hc
    exact ⟨h, hh, rfl⟩
  · exact ⟨h', hc, rfl⟩

theorem owned_of_empty {s : Host} (hc : s.client.child = none) : s.Owned := fun _ hh => nomatch hc.symm.trans hh

/-- A request that finds nothing stale leaves nothing stale. -/
theorem run_owned {s : Host} {c : Call} {e : RunEnv} (hn : ¬ s.Noticed) (hs : s.client.child = none ∨ s.isAlive = true) :
    (s.run c e).1.Owned := by
  have hretire : s.retireDead e.retiring = s := by
    rcases hs with hc | ha
    · unfold Host.retireDead
      rw [hc]
    · exact retireDead_alive ha e.retiring
  refine run_keeps (by rw [hretire]; exact owned_of_silent hn) (fun _ => ?_) (fun u ms hu => moves_owned ms hu)
    (fun u arrives hu => writeLine_owned c e.long arrives hu) (fun u hu => take_owned hu) (fun u a _ _ hu => hu)
    fun u err _ => owned_of_empty rfl
  rw [hretire]
  exact owned_of_silent (s := s.spawn c) hn

/-- A request that leaves presence on took no child's place, and what waits is still the child's own. -/
theorem run_keeps_owned {s : Host} (ht : Truthful s) {c : Call} (hc : c.cmd ≠ .presenceStart) {e : RunEnv}
    (ho : s.client.presenceActive = true → s.Owned) (ha : (s.run c e).1.client.presenceActive = true) : (s.run c e).1.Owned := by
  have hretire : (s.retireDead e.retiring).client.presenceActive = true → (s.retireDead e.retiring).Owned := by
    unfold Host.retireDead
    split
    · split
      · exact ho
      · exact nofun
    · exact ho
  refine run_keeps (I := fun u => u.client.presenceActive = true → u.Owned) hretire (fun hn hp => ?_)
    (fun u ms hu hp => moves_owned ms (hu ((moves_same u ms).presenceActive ▸ hp)))
    (fun u arrives hu hp => writeLine_owned c e.long arrives (hu hp)) (fun u hu hp => take_owned (hu ((take_same u).presenceActive ▸ hp)))
    (fun u a hcmd hpres hu hp => ?_) (fun u err _ => nofun) ha
  · -- an empty slot has the flag off
    have hoff : (s.retireDead e.retiring).client.presenceActive = false := by
      cases hal : s.isAlive with
      | true =>
        rw [retireDead_alive hal] at hn ⊢
        exact ht.empty (slot_none.2 hn)
      | false => exact (ht.emptied (retireDead_emptied hal e.retiring).1).empty (slot_none.2 hn)
    exact nomatch hoff.symm.trans hp
  · rcases hpres with hpres | hpres
    · exact (hc hpres).elim
    · have hoff : (u.acknowledge a).client.presenceActive = false := by
        show (a.cmd == .presenceStart) = false
        rw [hcmd, hpres]
        rfl
      exact nomatch hoff.symm.trans hp

/-! ## Polls, and what a wake-up is -/

/-- A poll takes no wake-up but the one it returns. -/
theorem pollEvent_wakes {s : Host} {started : Bool} (hw : s.Wakes started)
    (hx : ∀ x, s.pollEvent.2 = some x → x.ev.kind ≠ .presenceStopped) : s.pollEvent.1.Wakes started := by
  have hn : s.Noticed → s.pollEvent.1.Noticed := by
    rintro ⟨x, hm, hk⟩
    rcases DropQueue.mem_pop_of_mem hm with h | h
    · exact ⟨x, h, hk⟩
    · exact (hx x h hk).elim
  have hdrop : s.pollEvent.1.client.events.dropped = s.client.events.dropped := by
    rw [Host.pollEvent, Host.setEvents, DropQueue.pop_dropped]
  have hrep : ∀ h, s.Reports h → s.pollEvent.1.Reports h := fun h hr => ⟨hr.cancelled, fun hd => hn (hr.done hd)⟩
  rcases hw with ht | ⟨hst, ha⟩
  · refine .inl ⟨fun hc => hn (ht.empty hc), fun h hc => hrep h (ht.reports h hc), fun h hc hp => ?_⟩
    obtain ⟨hk, hs⟩ := ht.reading h hc hp
    exact ⟨hk, hs.imp hn fun ho => ho.mono (hdrop ▸ List.prefix_rfl) rfl⟩
  · obtain ⟨h, hc, hr⟩ := ha.child
    exact .inr ⟨hst, ha.flag, h, hc, hrep h hr⟩

/-- The reader has left its loop and has yet to push its notice. -/
def Host.Exiting (s : Host) : Prop :=
  ∃ h, s.client.child = some h ∧ h.cancelled = false ∧ (h.phase = .broke ∨ h.phase = .marked ∨ h.phase = .reporting)

theorem Host.Reports.trigger {s : Host} {h : Handle} (hr : s.Reports h) (hc : s.client.child = some h) :
    h.phase = .reading ∨ s.Noticed ∨ s.Exiting := by
  cases hp : h.phase with
  | reading => exact .inl rfl
  | broke => exact .inr (.inr ⟨h, hc, hr.cancelled, .inl hp⟩)
  | marked => exact .inr (.inr ⟨h, hc, hr.cancelled, .inr (.inl hp)⟩)
  | reporting => exact .inr (.inr ⟨h, hc, hr.cancelled, .inr (.inr hp)⟩)
  | done => exact .inr (.inl (hr.done hp))

theorem Host.Wakes.trigger {s : Host} {started : Bool} (hw : s.Wakes started) (hd : ¬ s.Drowned) :
    started = true ∧ s.isPresenceActive = true ∨ s.Noticed ∨ s.Exiting := by
  rcases hw with ht | ⟨hst, ha⟩
  · cases hc : s.client.child with
    | none => exact .inr (.inl (ht.empty hc))
    | some h =>
      rcases (ht.reports h hc).trigger hc with hp | htrig
      · obtain ⟨hk, hn | hout⟩ := ht.reading h hc hp
        · exact .inr (.inl hn)
        · exact (hd ⟨h, hc, hk.generation, hout⟩).elim
      · exact .inr htrig
  · obtain ⟨h, hc, hr⟩ := ha.child
    rcases hr.trigger hc with hp | htrig
    · refine .inl ⟨hst, ?_⟩
      rw [Host.isPresenceActive, ha.flag, isAlive_of hc, Handle.alive, hp]
      rfl
    · exact .inr htrig

end ElectricEel.Client
