/-
  ElectricEel.Core.AtMostOnce — a call hands its command to one process, once
  (docs/architecture.md, core.rs `run`, `pair`, `generate_key`, `share_destination`).

  A command is handed to a child by its request line, whether or not the write succeeds,
  and to a one-shot binary by running it. What a section adds to the two logs is counted
  (`handed`); an outcome it returns has to be that of the one execution (`Executed`).

  With no persistent session, or with BlueZ, every call is at most once. On the HCI
  backend `run` answers every session error with the one-shot tesla-control, also the
  errors that come after the write: then the command is handed out twice (`Replayed`).

  Proved: from every reachable state, `pair`, `generate_key` and `share_destination` are
  at most once, and `run` is exactly when it does not replay (`at_most_once`).
-/
import ElectricEel.Core.Sections
import ElectricEel.Core.Traffic

namespace ElectricEel.Control

open Lib Commands Wire Config Client

/-! ## What a section hands out -/

def OneShot.cmd : OneShot → Cmd
  | .control _ cmd _ => cmd
  | .keygen _ => .keygen

/-- The lines of `cmd` written between two states. -/
def newLines (cmd : Cmd) (c c' : Core) : List Write :=
  (c'.host.client.writes.drop c.host.client.writes.length).filter (·.req.cmd = cmd)

/-- The one-shot runs of `cmd` between two states. -/
def newOneShots (cmd : Cmd) (c c' : Core) : List OneShotRun :=
  (c'.oneShots.drop c.oneShots.length).filter (·.what.cmd = cmd)

def handed (cmd : Cmd) (c c' : Core) : Nat := (newLines cmd c c').length + (newOneShots cmd c c').length

/-- `out` is what one of the processes `cmd` was handed to came to. -/
inductive Executed (cmd : Cmd) (c c' : Core) (out : RunOutcome) : Prop
  | child (w : Write) (resp : Response) : w ∈ newLines cmd c c' →
      ⟨w.gen, w.req, resp⟩ ∈ c'.host.client.answered.drop c.host.client.answered.length → out = resp.outcome →
      Executed cmd c c' out
  | binary (o : OneShotRun) : o ∈ newOneShots cmd c c' → out = o.out → Executed cmd c c' out

/-- From `c`, `cmd` was handed out at most once, and the reply shows what came of it. -/
structure AtMostOnce {ε α : Type} (cmd : Cmd) (shows : α → RunOutcome → Prop) (c : Core) (r : Core × Except ε α) : Prop where
  handed : handed cmd c r.1 ≤ 1
  outcome : ∀ a, r.2 = .ok a → ∃ out, Executed cmd c r.1 out ∧ shows a out

/-! ## Sections one after the other -/

/-- `c'` comes after `c`, with none of `cmd` in between. -/
structure Before (cmd : Cmd) (c c' : Core) : Prop where
  sends : Sends (· ≠ cmd) c.host c'.host
  answered : c.host.client.answered <+: c'.host.client.answered
  oneShots : c'.oneShots = c.oneShots

theorem newLines_of_append {cmd : Cmd} {c c' : Core} {l : List Write}
    (h : c'.host.client.writes = c.host.client.writes ++ l) : newLines cmd c c' = l.filter (·.req.cmd = cmd) := by
  rw [newLines, h, List.drop_left]

namespace Before

variable {cmd : Cmd} {c c' c'' : Core}

theorem newLines (h : Before cmd c c') (hg : c'.host.client.writes <+: c''.host.client.writes) :
    newLines cmd c c'' = newLines cmd c' c'' := by
  obtain ⟨l, hl, hne⟩ := h.sends
  obtain ⟨l', hl'⟩ := hg
  have hnil : l.filter (·.req.cmd = cmd) = [] := by
    rw [List.filter_eq_nil_iff]
    exact fun w hw => by simpa using hne w hw
  rw [newLines_of_append hl'.symm, newLines_of_append (l := l ++ l') (by rw [← hl', hl, List.append_assoc]),
    List.filter_append, hnil, List.nil_append]

theorem newOneShots (h : Before cmd c c') : newOneShots cmd c c'' = newOneShots cmd c' c'' := by
  unfold Control.newOneShots
  rw [h.oneShots]

theorem executed (h : Before cmd c c') (hg : Grown c'.host c''.host) {out : RunOutcome} (hx : Executed cmd c' c'' out) :
    Executed cmd c c'' out := by
  cases hx with
  | child w resp hw ha ho =>
    refine .child w resp (h.newLines hg.writes ▸ hw) ?_ ho
    obtain ⟨l, hl⟩ := h.answered
    rw [← hl, List.length_append, ← List.drop_drop] at ha
    exact List.mem_of_mem_drop ha
  | binary o hm ho => exact .binary o (h.newOneShots ▸ hm) ho

/-- What holds of the later section holds of both. -/
theorem atMostOnce {ε α : Type} {shows : α → RunOutcome → Prop} {r : Core × Except ε α} (h : Before cmd c c')
    (hg : Grown c'.host r.1.host) (hr : AtMostOnce cmd shows c' r) : AtMostOnce cmd shows c r := by
  refine ⟨?_, fun a ha => ?_⟩
  · rw [Control.handed, h.newLines hg.writes, h.newOneShots]
    exact hr.handed
  · obtain ⟨out, hx, hs⟩ := hr.outcome a ha
    exact ⟨out, h.executed hg hx, hs⟩

end Before

/-- What a section makes of a reply without handing out anything more. -/
theorem AtMostOnce.later {ε ε' α β : Type} {cmd : Cmd} {shows : α → RunOutcome → Prop} {shows' : β → RunOutcome → Prop}
    {c c' c'' : Core} {reply : Except ε α} {reply' : Except ε' β} (h : AtMostOnce cmd shows c (c', reply))
    (hw : c''.host.client.writes = c'.host.client.writes) (ha : c'.host.client.answered <+: c''.host.client.answered)
    (ho : c''.oneShots = c'.oneShots)
    (hr : ∀ b, reply' = .ok b → ∃ a, reply = .ok a ∧ ∀ out, shows a out → shows' b out) :
    AtMostOnce cmd shows' c (c'', reply') := by
  have hl : newLines cmd c c'' = newLines cmd c c' := by unfold newLines; rw [hw]
  have hs : newOneShots cmd c c'' = newOneShots cmd c c' := by unfold newOneShots; rw [ho]
  refine ⟨by unfold Control.handed; rw [hl, hs]; exact h.handed, fun b hb => ?_⟩
  obtain ⟨a, hra, hsh⟩ := hr b hb
  obtain ⟨out, hx, hout⟩ := h.outcome a hra
  refine ⟨out, ?_, hsh out hout⟩
  cases hx with
  | child w resp hm hans heq => exact .child w resp (hl ▸ hm) ((ha.sublist.drop _).subset hans) heq
  | binary o hm heq => exact .binary o (hs ▸ hm) heq

/-! ## One request to the child -/

theorem newOneShots_append {cmd : Cmd} {c c' : Core} {o : OneShotRun} (h : c'.oneShots = c.oneShots ++ [o])
    (hcmd : o.what.cmd = cmd) : newOneShots cmd c c' = [o] := by
  rw [newOneShots, h, List.drop_left]
  simp [hcmd]

theorem newOneShots_self (cmd : Cmd) {c c' : Core} (h : c'.oneShots = c.oneShots) : newOneShots cmd c c' = [] := by
  rw [newOneShots, h, List.drop_length, List.filter_nil]

namespace Core

theorem sessionRun_newLines (c : Core) (cmd : Cmd) (args : List String) (e : RunEnv) :
    (newLines cmd c (c.sessionRun cmd args e).1).length = (c.host.reaches e).toNat := by
  obtain ⟨l, hl, hr, hn⟩ := run_writes c.host (c.call cmd args) e
  rw [newLines_of_append hl, ← hn, List.filter_eq_self.2]
  intro w hw
  rw [hr w hw]
  exact decide_eq_true rfl

theorem sessionRun_handed (c : Core) (cmd : Cmd) (args : List String) (e : RunEnv) :
    handed cmd c (c.sessionRun cmd args e).1 = (c.host.reaches e).toNat := by
  rw [handed, sessionRun_newLines, @newOneShots_self cmd c (c.sessionRun cmd args e).1 rfl, List.length_nil,
    Nat.add_zero]

/-- A child that does not forge responses answers the one request of a `run`. -/
theorem sessionRun_once {c : Core} (h : HonestRun c.host) (cmd : Cmd) (args : List String) {e : RunEnv}
    (he : e.Moves (Move.Honest c.host.client.nextId)) :
    AtMostOnce cmd (fun a out => a = out) c (c.sessionRun cmd args e) := by
  refine ⟨by rw [sessionRun_handed]; exact Bool.toNat_le _, fun out ho => ⟨out, ?_, rfl⟩⟩
  obtain ⟨resp, x, _, hout, hw, ha⟩ := ((quiet h).run (c.call cmd args) e he.before he.waiting).ok out ho
  exact .child _ resp (List.mem_filter.2 ⟨hw, decide_eq_true rfl⟩) ha hout

/-! ## run -/

theorem handed_self (cmd : Cmd) (c : Core) : handed cmd c c = 0 := by
  rw [handed, newOneShots_self cmd rfl, newLines_of_append (l := []) (List.append_nil _).symm]
  rfl

/-- A call that returns an error before it does anything. -/
theorem refused_once {ε α : Type} (cmd : Cmd) (shows : α → RunOutcome → Prop) (c : Core) (err : ε) :
    AtMostOnce cmd shows c (c, .error err) :=
  ⟨by rw [handed_self]; exact Nat.zero_le _, fun _ => nofun⟩

/-- A one-shot run, and no line. -/
theorem oneShot_once {ε α : Type} {cmd : Cmd} {shows : α → RunOutcome → Prop} {c c' : Core} {o : OneShotRun}
    (hw : c'.host.client.writes = c.host.client.writes) (ho : c'.oneShots = c.oneShots ++ [o]) (hcmd : o.what.cmd = cmd)
    {reply : Except ε α} (hr : ∀ a, reply = .ok a → shows a o.out) : AtMostOnce cmd shows c (c', reply) := by
  have hl : newLines cmd c c' = [] := newLines_of_append (l := []) (by rw [hw, List.append_nil])
  have hs : newOneShots cmd c c' = [o] := newOneShots_append ho hcmd
  refine ⟨by rw [handed, hl, hs]; exact Nat.le_refl 1, fun a ha => ⟨o.out, ?_, hr a ha⟩⟩
  exact .binary o (by rw [hs]; exact List.mem_singleton.2 rfl) rfl

/-- The call is accepted, its request handed to the child of an HCI session, and no answer
    arrives: the one-shot binary is run on top of it. -/
structure Replayed (K : Checks) (c : Core) (cmd : Cmd) (args : List String) (e : SectionEnv) : Prop where
  known : isKnownCommand cmd = true
  ranges : K.validateArgRanges cmd args = .ok ()
  free : e.busy = false
  common : ∃ l, c.commonArgsLocked = .ok l
  session : c.session = true
  hci : c.host.client.bleBackend ≠ .bluez
  reaches : c.host.reaches e.run = true
  lost : c.host.answeredInTime (c.call cmd args) e.run = false

theorem run_once (K : Checks) {c : Core} (h : HonestRun c.host) (cmd : Cmd) (args : List String) {e : SectionEnv}
    (he : e.run.Moves (Move.Honest c.host.client.nextId)) :
    AtMostOnce cmd (fun a out => a = out) c (c.run K cmd args e) ↔ ¬ Replayed K c cmd args e := by
  have once := sessionRun_once h cmd args he
  have hok := run_isOk c.host (c.call cmd args) e.run
  unfold run
  split
  · rename_i hk
    exact iff_of_true (refused_once ..) fun hr => by simp [hr.known] at hk
  split
  · rename_i hv
    exact iff_of_true (refused_once ..) fun hr => by rw [hr.ranges] at hv; cases hv
  split
  · rename_i hb
    exact iff_of_true (refused_once ..) fun hr => by simp [hr.free] at hb
  split
  · rename_i hc
    exact iff_of_true (refused_once ..) fun hr => by obtain ⟨l, hl⟩ := hr.common; rw [hl] at hc; cases hc
  rename_i hk _ hv hb _ common hc
  split
  · rename_i hs
    rcases hr : c.sessionRun cmd args e.run with ⟨c', err | out⟩
    · have hc' : c' = c.setHost (c.host.run (c.call cmd args) e.run).1 := (congrArg Prod.fst hr).symm
      have herr : (c.host.run (c.call cmd args) e.run).2.toBool = false := by
        rw [show (c.host.run (c.call cmd args) e.run).2 = .error err from congrArg Prod.snd hr]
        rfl
      have hble : c'.host.client.bleBackend = c.host.client.bleBackend := by
        rw [hc']
        exact (Grown.path (Host.run_path c.host (c.call cmd args) e.run.any)).bleBackend
      rw [hr] at once
      dsimp only
      split
      · rename_i hble'
        refine iff_of_true ⟨once.handed, fun _ => nofun⟩ fun hrep => hrep.hci ?_
        rw [← hble, hble']
      · rename_i hble'
        cases hrch : c.host.reaches e.run with
        | false =>
          obtain ⟨l, hl, _, hn⟩ := run_writes c.host (c.call cmd args) e.run
          rw [hrch] at hn
          obtain rfl := List.eq_nil_of_length_eq_zero hn
          refine iff_of_true (oneShot_once (o := ⟨.control common cmd args, e.oneShot⟩) ?_ ?_ rfl fun a ha => ?_)
            fun hrep => Bool.false_ne_true (hrch.symm.trans hrep.reaches)
          · rw [hc']
            exact hl.trans (List.append_nil _)
          · rw [hc']
            rfl
          · cases ha
            rfl
        | true =>
          have hlines := sessionRun_newLines c cmd args e.run
          rw [hr, hrch] at hlines
          have hshots : newOneShots cmd c (c'.runBinary (.control common cmd args) e.oneShot).1 =
              [⟨.control common cmd args, e.oneShot⟩] := by
            rw [hc']
            exact newOneShots_append rfl rfl
          refine iff_of_false (fun hamo => ?_) (not_not.2 ?_)
          · -- one line and one binary
            have h2 := hamo.handed
            rw [handed, hshots] at h2
            have hl : (newLines cmd c (c'.runBinary (.control common cmd args) e.oneShot).1).length = 1 := hlines
            rw [hl, List.length_singleton] at h2
            exact absurd h2 (by decide)
          · rw [herr, hrch, Bool.true_and] at hok
            exact ⟨by simpa using hk, hv, by simpa using hb, ⟨common, hc⟩, hs, hble ▸ hble', hrch, hok.symm⟩
    · rw [hr] at once
      have hout : (c.host.run (c.call cmd args) e.run).2.toBool = true := by
        rw [show (c.host.run (c.call cmd args) e.run).2 = .ok out from congrArg Prod.snd hr]
        rfl
      refine iff_of_true ⟨once.handed, fun a ha => once.outcome a ?_⟩ fun hrep => ?_
      · cases ha
        rfl
      · rw [hout, hrep.lost, Bool.and_false] at hok
        cases hok
  · rename_i hs
    refine iff_of_true (oneShot_once (o := ⟨.control common cmd args, e.oneShot⟩) (by rfl) (by rfl) (by rfl) fun a ha => ?_)
      fun hrep => hs hrep.session
    cases ha
    rfl

/-! ## share_destination -/

theorem shareDestination_once (K : Checks) {c : Core} (h : HonestRun c.host) (text : String) {e : SectionEnv}
    (he : e.run.Moves (Move.Honest c.host.client.nextId)) :
    AtMostOnce .navigate (fun a out => a = (out.ok, out.stdout, out.stderr)) c (c.shareDestination K text e) := by
  unfold shareDestination
  split
  · exact refused_once ..
  rename_i dest _
  have once := sessionRun_once h .navigate (Destination.args dest) he
  split
  · exact refused_once ..
  split
  · exact refused_once ..
  split
  · exact refused_once ..
  split
  all_goals
    rename_i heq
    rw [heq] at once
    refine once.later rfl List.prefix_rfl rfl fun b hb => ?_
    cases hb
  exact ⟨_, rfl, fun out hout => by rw [hout]⟩

/-! ## generate_key -/

/-- The public key returned is the one the keygen printed, or tesla-keygen's output file. -/
def ShowsKey (c' : Core) (pub : Text) (out : RunOutcome) : Prop :=
  out.ok = true ∧ if c'.session then pub = trimText out.stdout else c'.disk.pub.map trimText = some pub

theorem generateKeyOneShot_once {c : Core} (hs : c.session = false) (force : Bool) (e : SectionEnv) :
    AtMostOnce .keygen (ShowsKey (c.generateKeyOneShot force e).1) c (c.generateKeyOneShot force e) := by
  unfold generateKeyOneShot
  dsimp only
  split
  · exact oneShot_once (o := ⟨.keygen force, _⟩) (by rfl) (by rfl) (by rfl) fun _ h => nomatch h
  rename_i hok
  split
  · rename_i pub hpub
    refine oneShot_once (o := ⟨.keygen force, _⟩) (by rfl) (by rfl) (by rfl) fun a ha => ?_
    cases ha
    refine ⟨by simpa using hok, ?_⟩
    rw [if_neg (by rw [setWorld_eq]; simp [hs]), hpub]
    rfl
  · exact oneShot_once (o := ⟨.keygen force, _⟩) (by rfl) (by rfl) (by rfl) fun _ h => nomatch h

theorem keygen_once {c : Core} (h : HonestRun c.host) (force : Bool) {e : SectionEnv}
    (he : e.run.Moves (Move.Honest c.host.client.nextId)) :
    AtMostOnce .keygen (ShowsKey (c.keygen force e).1) c (c.keygen force e) := by
  cases hs : c.session with
  | false =>
    have : c.keygen force e = c.generateKeyOneShot force e := by simp [keygen, hs]
    rw [this]
    exact generateKeyOneShot_once hs force e
  | true =>
    have once := sessionRun_once h .keygen (if force then ["-f"] else []) he
    have hsess := (sessionRun_steady c .keygen (if force then ["-f"] else []) e.run).session
    unfold keygen
    simp only [hs, Bool.not_true, Bool.false_eq_true, if_false]
    split
    · rename_i heq
      rw [heq] at once
      exact once.later rfl List.prefix_rfl rfl fun _ => nofun
    · rename_i c' out heq
      rw [heq] at once hsess
      split
      · exact once.later rfl List.prefix_rfl rfl fun _ => nofun
      · rename_i hok
        split
        · exact once.later rfl List.prefix_rfl rfl fun _ => nofun
        · refine once.later rfl List.prefix_rfl rfl fun b hb => ?_
          cases hb
          refine ⟨out, rfl, fun out' hout => ?_⟩
          subst hout
          refine ⟨by simpa using hok, ?_⟩
          rw [if_pos (by exact hsess.trans hs)]

theorem resetEnrollment_before (c : Core) {P : Move → Prop} {e : SectionEnv} (he : e.Moves P) :
    Before .keygen c (c.resetEnrollment e).1 := by
  refine ⟨(resetEnrollment_sends c e).mono ?_, (path_grown (resetEnrollment_path (S := .any P) c he (fun _ => trivial) (Scope.any_writes P))).answered, ?_⟩
  · rintro x rfl
    decide
  · have hs : (c.saveConfig { c.cfg with vinState := .unpaired } e.save).1.oneShots = c.oneShots := rfl
    unfold resetEnrollment
    dsimp only
    split
    · rename_i heq
      rwa [heq] at hs
    · rename_i heq
      rw [heq] at hs
      rw [invalidate_eq, stopPhoneKeyLocked_eq]
      exact hs

/-- Nothing is handed out once the key is there. -/
theorem invalidated_once {c c' : Core} {during : List Move} {pub : Text}
    (h : AtMostOnce (ε := OperationError) .keygen (ShowsKey c') c (c', .ok pub)) :
    AtMostOnce (ε := OperationError) .keygen (ShowsKey (c'.invalidate during)) c (c'.invalidate during, .ok pub) := by
  cases hs : c'.session with
  | false =>
    have : c'.invalidate during = c' := by simp [invalidate, hs]
    rwa [this]
  | true =>
    have hp := path_grown (@invalidate_path (.any fun _ => True) c' during fun _ _ => trivial)
    refine h.later ?_ hp.answered (by rw [invalidate_eq]; rfl) fun b hb => ⟨b, hb, fun out hout => ?_⟩
    · rw [invalidate_eq, hs]
      exact invalidate_writes c'.host during
    · refine ⟨hout.1, ?_⟩
      rw [if_pos ((invalidate_steady c' during).session.trans hs)]
      simpa [hs] using hout.2

theorem generateKey_once {c : Core} (h : HonestRun c.host) (force : Bool) {e : SectionEnv}
    (he : e.Moves (Move.Honest c.host.client.nextId)) :
    AtMostOnce .keygen (ShowsKey (c.generateKey force e).1) c (c.generateKey force e) := by
  unfold generateKey
  split
  · exact refused_once ..
  split
  · have hb := resetEnrollment_before c he
    have hp := resetEnrollment_path (S := .any _) c he (fun _ => trivial) (Scope.any_writes _)
    split
    · rename_i c' _ heq
      rw [heq] at hb
      exact hb.atMostOnce (.refl _) (refused_once ..)
    · rename_i c' heq
      rw [heq] at hb hp
      have hn := (path_grown hp).nextId
      have he' : e.Moves (Move.Honest c'.host.client.nextId) := he.mono fun m hm => Move.Honest.mono hm hn
      have hk := keygen_once (honestRun_path h hp) force he'.run
      have hg := path_grown (keygen_path (S := .any _) c' force he' (fun _ _ => trivial) (Scope.any_writes _).toKeyWrites)
      split
      · rename_i heq'
        rw [heq'] at hk hg
        exact hb.atMostOnce hg (hk.later rfl List.prefix_rfl rfl fun _ => nofun)
      · rename_i heq'
        rw [heq'] at hk hg
        refine hb.atMostOnce (hg.trans ?_) (invalidated_once hk)
        exact path_grown (invalidate_path (S := .any fun _ => True) _ fun _ _ => trivial)
  · exact keygen_once h force he.run

/-! ## pair -/

/-- A confirmed pairing is the child's outcome; a negative reply is too, or comes from a
    check before the request. -/
def PairShows (c c' : Core) : PairStep → Prop
  | .confirmed stdout => ∃ out, Executed .pair c c' out ∧ out.ok = true ∧ stdout = out.stdout
  | .done (.ok reply) =>
    handed .pair c c' = 0 ∨ ∃ out, Executed .pair c c' out ∧ out.ok = false ∧ reply = (false, out.stdout, trim out.stderr)
  | .done (.error _) => True

/-- From `c`, pair was handed out at most once, and the step shows what came of it. -/
structure PairedOnce (c : Core) (r : Core × PairStep) : Prop where
  handed : handed .pair c r.1 ≤ 1
  shows : PairShows c r.1 r.2

theorem before_handed {cmd : Cmd} {c c' : Core} (h : Before cmd c c') : handed cmd c c' = 0 := by
  rw [Control.handed, h.newLines List.prefix_rfl, h.newOneShots]
  exact handed_self cmd c'

theorem stopped_before {cmd : Cmd} (hc : cmd ≠ .presenceStop) (c : Core) (e : StopEnv) (ms : List Move) :
    Before cmd c ((c.stopPhoneKeyLocked e).moves ms) := by
  have hp := (stopPhoneKeyLocked_path (S := .any fun _ => True) c e.any fun _ => trivial).trans
    (@moves_path (.any fun _ => True) _ ms fun _ _ => trivial)
  refine ⟨((stopPhoneKeyLocked_sends c e).trans (moves_sends _ ms)).mono ?_, (path_grown hp).answered, ?_⟩
  · rintro x rfl
    exact hc.symm
  · rw [stopPhoneKeyLocked_eq]
    rfl

theorem persistPaired_shows {c c' : Core} {out : RunOutcome} (hn : handed .pair c c' ≤ 1) (hx : Executed .pair c c' out)
    (hok : out.ok = true) (e : SectionEnv) : PairedOnce c (c'.persistPaired out.stdout e) := by
  have hw : (c'.saveConfig { c'.cfg with vinState := .paired } e.save).1.host.client = c'.host.client := rfl
  have ho : (c'.saveConfig { c'.cfg with vinState := .paired } e.save).1.oneShots = c'.oneShots := rfl
  have keep : ∀ d : Core, d.host.client = c'.host.client → d.oneShots = c'.oneShots →
      handed .pair c d = handed .pair c c' ∧ Executed .pair c d out := by
    intro d hd hs
    have hl : newLines .pair c d = newLines .pair c c' := by unfold newLines; rw [hd]
    have hs' : newOneShots .pair c d = newOneShots .pair c c' := by unfold newOneShots; rw [hs]
    refine ⟨by unfold Control.handed; rw [hl, hs'], ?_⟩
    cases hx with
    | child w resp hm ha heq => exact .child w resp (hl ▸ hm) (hd ▸ ha) heq
    | binary o hm heq => exact .binary o (hs' ▸ hm) heq
  unfold persistPaired
  dsimp only
  split
  · rename_i heq
    rw [heq] at hw ho
    exact ⟨(keep _ hw ho).1 ▸ hn, trivial⟩
  · rename_i d heq
    rw [heq] at hw ho
    obtain ⟨h1, h2⟩ := keep { d with cfg := { c'.cfg with vinState := .paired } } hw ho
    exact ⟨h1 ▸ hn, out, h2, hok, rfl⟩

theorem pairSection_once {c : Core} (h : HonestRun c.host) {e : SectionEnv} (he : e.Moves (Move.Honest c.host.client.nextId)) :
    PairedOnce c (c.pairSection e) := by
  have refused : ∀ {d : Core} (r : PairReply), Before .pair c d → PairedOnce c (d, .done r) := by
    intro d r hd
    refine ⟨by rw [before_handed hd]; exact Nat.zero_le _, ?_⟩
    cases r with
    | error _ => trivial
    | ok _ => exact .inl (before_handed hd)
  have here : Before .pair c c := ⟨.refl, List.prefix_rfl, rfl⟩
  have hb := @stopped_before .pair (by decide) c e.stop e.mid
  have hp := (stopPhoneKeyLocked_path (S := .any _) c he.stop fun _ => trivial).trans (moves_path (c.stopPhoneKeyLocked e.stop) he.mid)
  unfold pairSection
  split
  · exact refused _ here
  split
  · exact refused _ here
  split
  · exact refused _ here
  dsimp only
  generalize hd : (c.stopPhoneKeyLocked e.stop).moves e.mid = d at hb hp
  have hrun : e.run.Moves (Move.Honest d.host.client.nextId) :=
    RunEnv.Moves.mono (fun m hm => Move.Honest.mono hm (path_grown hp).nextId) he.run
  have once := hb.atMostOnce (path_grown (sessionRun_path (S := .any _) d hrun trivial))
    (sessionRun_once (honestRun_path h hp) .pair [World.publicKeyPath, "owner", "android_device"] hrun)
  split
  · exact refused _ hb
  split
  · exact refused _ hb
  split
  · rename_i heq
    rw [heq] at once
    exact ⟨once.handed, trivial⟩
  · rename_i d' out heq
    rw [heq] at once
    obtain ⟨out', hx, rfl⟩ := once.outcome out rfl
    split
    · rename_i hok
      exact ⟨once.handed, .inr ⟨out, hx, by simpa using hok, rfl⟩⟩
    · rename_i hok
      exact persistPaired_shows once.handed hx (by simpa using hok) e

/-- The section of start_phone_key that may follow hands out no pairing. -/
theorem startPhoneKey_before (c : Core) (e : StartEnv) : Before .pair c (c.startPhoneKey e).1 := by
  have hp := startPhoneKey_path (S := .any fun _ => True) c e.any fun _ => trivial
  exact ⟨(startPhoneKey_sends c e).mono (by rintro x rfl; decide), (path_grown hp).answered, (startPhoneKey_kept c e).oneShots⟩

end Core

/-! ## Every call -/

/-- Over every reachable state and every failure of the child, its socket or its reply:
    each call hands its command to at most one process, once, and returns that execution's
    outcome; `run` does so exactly when it does not replay. -/
theorem at_most_once {K : Checks} {y : System} (h : (systems K).Reach System.Honest y) (e : SectionEnv)
    (he : e.Moves (Move.Honest y.core.host.client.nextId)) :
    (∀ cmd args, AtMostOnce cmd (fun a out => a = out) y.core (y.core.run K cmd args e) ↔ ¬ Core.Replayed K y.core cmd args e) ∧
    (∀ text, AtMostOnce .navigate (fun a out => a = (out.ok, out.stdout, out.stderr)) y.core (y.core.shareDestination K text e)) ∧
    (∀ force, AtMostOnce .keygen (Core.ShowsKey (y.core.generateKey force e).1) y.core (y.core.generateKey force e)) ∧
    Core.PairedOnce y.core (y.core.pairSection e) ∧ handed .pair y.core (y.core.startPhoneKey e.start).1 = 0 :=
  ⟨fun cmd args => Core.run_once K (honest_host h) cmd args he.run,
    fun text => Core.shareDestination_once K (honest_host h) text he.run,
    fun force => Core.generateKey_once (honest_host h) force he,
    Core.pairSection_once (honest_host h) he, Core.before_handed (Core.startPhoneKey_before y.core e.start)⟩

/-! ## Runs -/

/-- A core on a paired installation. -/
def fresh (backend : Backend) : System := (System.start pairedWorld).step anyArgs (.new (some backend) false none)

theorem fresh_reached (backend : Backend) : (systems anyArgs).Reach System.Honest (fresh backend) :=
  .step (M := systems anyArgs) (.new (some backend) false none) (.init ⟨pairedWorld, rfl⟩) trivial

def trunkOpen : Cmd := .vendor .trunkOpen

/-- The child opens the trunk, and its answer comes after the deadline. -/
def lateAnswer : SectionEnv := { run := { waiting := [.serve {}] }, oneShot := ⟨true, .str "", "", 0⟩ }

theorem trunkOpen_once :
    handed trunkOpen (fresh .bluez).core ((fresh .bluez).core.run anyArgs trunkOpen [] { run := answered }).1 = 1 ∧
    AtMostOnce trunkOpen (fun a out => a = out) (fresh .bluez).core
      ((fresh .bluez).core.run anyArgs trunkOpen [] { run := answered }) := by
  refine ⟨by decide, ((at_most_once (fresh_reached .bluez) _ (runOnly_moves (answered_honest _))).1 _ _).2 fun hr => ?_⟩
  exact hr.hci (by decide)

/-- On HCI the child carries the command out, and then tesla-control does once more. -/
theorem trunkOpen_replayed :
    ∃ y, (systems anyArgs).Reach System.Honest y ∧
      handed trunkOpen y.core (y.core.run anyArgs trunkOpen [] lateAnswer).1 = 2 ∧
      ¬ AtMostOnce trunkOpen (fun a out => a = out) y.core (y.core.run anyArgs trunkOpen [] lateAnswer) :=
  ⟨fresh .hci, fresh_reached .hci, by decide, fun h => absurd h.handed (by decide)⟩

end ElectricEel.Control
