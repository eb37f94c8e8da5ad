/-
  ElectricEel.Client.Pairing — what the requests do to private_key.pem and to the
  enrollments the vehicles confirmed (session_client.rs `run`, main.go `dispatchKeygen`,
  pairing.go `dispatchPair`).

  A child reads its VIN once, when it is spawned. A request makes a key only if it is a
  keygen with -f, or a keygen where there is no key (`KeepsKey`).

  Proved: nothing takes a confirmed enrollment back (`act_confirmed`); while no line before
  the child makes a key and nobody removes the file, private_key.pem stays (`act_held`);
  a pair request answered OK means that the key on disk was confirmed for the VIN the
  caller passed, the child having been spawned with it (`run_confirms`).
-/
import ElectricEel.Client.Slot

namespace ElectricEel.Client

open Lib Commands Wire Child

/-! ## The child's VIN -/

theorem serve_child (s : Host) (h : Handle) (line : Line) (rest : List Line) (e : ServeEnv) :
    ∃ h', (s.serve h line rest e).client.child = some h' ∧ h'.proc = (serveLine s.world h.proc line e).1 ∧ h'.vin = h.vin := by
  unfold Host.serve
  dsimp only
  split <;> exact ⟨_, rfl, rfl, rfl⟩

theorem move_vin {s : Host} {m : Move} {h' : Handle} (hc : (s.move m).client.child = some h') :
    ∃ h, s.client.child = some h ∧ h'.proc.vin = h.proc.vin ∧ h'.vin = h.vin := by
  have hm := s.moved m
  generalize s.move m = t at hm hc
  cases hm with
  | stay | tick | enroll | revoke | unlinkKey => exact ⟨h', hc, rfl, rfl⟩
  | @serve h line rest e hh _ =>
    obtain ⟨x, hx, hp, hv⟩ := serve_child s h line rest e
    obtain rfl := Option.some.inj (hx.symm.trans hc)
    refine ⟨h, hh, ?_, hv⟩
    rw [hp]
    exact serveLine_vin s.world h.proc line e
  | @own h o hh =>
    obtain rfl := Option.some.inj hc
    exact ⟨h, hh, Sess.own_vin s.world.disk h.proc o, rfl⟩
  | @read h p rest hh _ _ =>
    refine ⟨h, hh, ?_⟩
    unfold Host.read at hc
    split at hc <;> cases hc <;> exact ⟨rfl, rfl⟩
  | @send h f hh =>
    obtain rfl := Option.some.inj hc
    exact ⟨h, hh, rfl, rfl⟩
  | @exit h m hh _ _ =>
    obtain rfl := Option.some.inj hc
    exact ⟨h, hh, rfl, rfl⟩
  | @report h hh _ =>
    obtain rfl := Option.some.inj hc
    exact ⟨h, hh, rfl, rfl⟩

/-- The VIN the slot's child works with came with it, or with its spawn. -/
theorem act_vin {s : Host} {a : Act} {h' : Handle} (hc : (s.act a).client.child = some h') :
    (∃ h, s.client.child = some h ∧ h'.proc.vin = h.proc.vin ∧ h'.vin = h.vin) ∨
    ∃ c, a = .spawn c ∧ h'.proc.vin = c.vin ∧ h'.vin = c.vin := by
  cases a with
  | move m => exact .inl (move_vin hc)
  | cancel =>
    obtain ⟨h, hh, rfl⟩ := Option.map_eq_some_iff.1 hc
    exact .inl ⟨h, hh, rfl, rfl⟩
  | reap => cases hc
  | spawn c =>
    obtain rfl := Option.some.inj hc
    exact .inr ⟨c, rfl, rfl, rfl⟩
  | writeLine c long arrives =>
    obtain ⟨h, hh, rfl⟩ := Option.map_eq_some_iff.1 hc
    refine .inl ⟨h, hh, ?_⟩
    split <;> exact ⟨rfl, rfl⟩
  | take =>
    cases hh : s.client.child with
    | none =>
      have hn : s.take.client.child = none := by
        unfold Host.take
        rw [hh]
        exact hh
      exact nomatch hn.symm.trans hc
    | some h =>
      obtain rfl := Option.some.inj ((take_child hh).symm.trans hc)
      exact .inl ⟨h, rfl, rfl, rfl⟩
  | _ => exact .inl ⟨h', hc, rfl, rfl⟩

/-- The child works with the VIN in its handle. -/
def Host.Bound (s : Host) : Prop := ∀ h, s.client.child = some h → h.proc.vin = h.vin

theorem act_bound {s : Host} (hb : s.Bound) (a : Act) : (s.act a).Bound := by
  intro h' hc
  rcases act_vin hc with ⟨h, hh, hp, hv⟩ | ⟨c, _, hp, hv⟩
  · rw [hp, hv]
    exact hb h hh
  · rw [hp, hv]

theorem bound {s : Host} (h : AnyRun s) : s.Bound := by
  refine h.inv (I := Host.Bound) ?_ fun s op hb _ => ?_
  · intro s hs h hc
    obtain ⟨b, hb⟩ := hs
    rw [hb] at hc
    cases hc
  · cases op with
    | run c e => exact (Host.run_path s c e.any).inv (I := Host.Bound) (fun _ a _ hb => act_bound hb a) hb
    | invalidate during =>
      exact (Host.invalidate_path (K := fun _ => True) s fun _ _ => trivial).inv (I := Host.Bound) (fun _ a _ hb => act_bound hb a) hb
    | move m => exact act_bound hb (.move m)
    | pollEvent | clearEvents | files => exact hb

/-! ## Confirmed enrollments -/

theorem act_confirmed (s : Host) (a : Act) : ∀ x ∈ s.world.confirmed, x ∈ (s.act a).world.confirmed := by
  intro x hx
  cases act_touched s a with
  | nothing _ hc =>
    rw [hc]
    exact hx
  | unlinkKey _ hw =>
    rw [hw]
    exact hx
  | @served h line rest e _ _ hw =>
    rw [hw]
    rcases serveLine_effect s.world h.proc line e with ⟨_, he⟩ | ⟨_, _, _, _, he⟩
    · rw [he]
      exact hx
    · rcases he.confirmed with hc | ⟨_, _, _, _, hc, _⟩
      · rw [hc]
        exact hx
      · rw [hc]
        exact List.mem_cons_of_mem _ hx

/-! ## The key stays -/

/-- The request makes no key where the key file is `f`. -/
def KeepsKey (f : Option PrivFile) (cmd : Cmd) (args : List String) : Prop :=
  cmd = .keygen → args.contains "-f" = false ∧ f.isSome = true

theorem effect_priv {w w' : World} {vin : String} {req : Request} {resp : Response} (he : Effect w w' vin req resp)
    (hk : KeepsKey w.disk.priv req.cmd req.args) : w'.disk.priv = w.disk.priv := by
  rcases he.priv with hp | ⟨hc, hf, _⟩
  · exact hp
  · obtain ⟨hforce, hsome⟩ := hk hc
    rcases hf with hf | hf
    · rw [hforce] at hf
      cases hf
    · rw [hf] at hsome
      cases hsome

/-- private_key.pem is `f`, and no line before the slot's child changes that. -/
structure Host.Held (f : Option PrivFile) (s : Host) : Prop where
  priv : s.world.disk.priv = f
  inbox : ∀ h, s.client.child = some h → ∀ req, .request req ∈ h.inbox → KeepsKey f req.cmd req.args

theorem Quiet.held {s : Host} (hq : Quiet s) : s.Held s.world.disk.priv where
  priv := rfl
  inbox h hc req hr := by
    rw [(hq h hc).1] at hr
    cases hr

/-- A request line before the child was there already, or was just written. -/
theorem act_inbox {s : Host} {a : Act} {h' : Handle} (hc : (s.act a).client.child = some h') {req : Request}
    (hr : .request req ∈ h'.inbox) :
    (∃ h, s.client.child = some h ∧ .request req ∈ h.inbox) ∨ ∃ c long, a = .writeLine c long true ∧ req = s.request c := by
  cases a with
  | move m =>
    obtain ⟨h, hh, _, hx⟩ := move_exchange m hc
    refine .inl ⟨h, hh, ?_⟩
    cases hx with
    | none hi _ _ => rwa [hi] at hr
    | sent _ _ hi _ _ => rwa [hi] at hr
    | served line rest resp hin hi _ _ _ =>
      rw [hi] at hr
      split at hr
      · cases hr
      · rw [hin]
        exact List.mem_cons_of_mem _ hr
  | cancel =>
    obtain ⟨h, hh, rfl⟩ := Option.map_eq_some_iff.1 hc
    exact .inl ⟨h, hh, hr⟩
  | reap => cases hc
  | spawn c =>
    obtain rfl := Option.some.inj hc
    cases hr
  | writeLine c long arrives =>
    obtain ⟨h, hh, rfl⟩ := Option.map_eq_some_iff.1 hc
    cases arrives with
    | false => exact .inl ⟨h, hh, hr⟩
    | true =>
      rcases List.mem_append.1 hr with hr | hr
      · exact .inl ⟨h, hh, hr⟩
      · refine .inr ⟨c, long, rfl, ?_⟩
        have hl := List.mem_singleton.1 hr
        split at hl
        · cases hl
        · exact Line.request.inj hl
  | take =>
    cases hh : s.client.child with
    | none =>
      have hn : s.take.client.child = none := by
        unfold Host.take
        rw [hh]
        exact hh
      exact nomatch hn.symm.trans hc
    | some h =>
      obtain rfl := Option.some.inj ((take_child hh).symm.trans hc)
      exact .inl ⟨h, rfl, hr⟩
  | _ => exact .inl ⟨h', hc, hr⟩

theorem act_held {f : Option PrivFile} {s : Host} (h : s.Held f) {a : Act} (ha : a ≠ .move .unlinkKey)
    (hw : ∀ c long, a = .writeLine c long true → KeepsKey f c.cmd c.args) : (s.act a).Held f where
  priv := by
    cases act_touched s a with
    | nothing hd _ =>
      rw [hd]
      exact h.priv
    | unlinkKey hu _ => exact (ha hu).elim
    | @served x line rest e hc hin hs =>
      rw [hs]
      rcases serveLine_effect s.world x.proc line e with ⟨_, he⟩ | ⟨req, _, hl, _, he⟩
      · rw [he]
        exact h.priv
      · refine (effect_priv he ?_).trans h.priv
        rw [h.priv]
        refine h.inbox x hc req ?_
        rw [hin, hl]
        exact List.mem_cons_self
  inbox h' hc req hr := by
    rcases act_inbox hc hr with ⟨x, hx, hr⟩ | ⟨c, long, rfl, rfl⟩
    · exact h.inbox x hx req hr
    · exact hw c long rfl

theorem run_held {f : Option PrivFile} {s : Host} (h : s.Held f) {c : Call} (hk : KeepsKey f c.cmd c.args) {e : RunEnv}
    (he : e.Moves (· ≠ .unlinkKey)) : (s.run c e).1.Held f := by
  refine (Host.run_path s c he).inv (I := Host.Held f) (fun t a ha ht => act_held ht ?_ ?_) h
  · rintro rfl
    rcases ha with ha | ha <;> simp at ha
  · rintro c' long rfl
    obtain rfl : c' = c := ha
    exact hk

/-! ## A pair request -/

/-- Of the answers after the first `old` ones, each OK to a pair request confirmed the key on disk. -/
structure Host.Vouched (vin : String) (old : Nat) (s : Host) : Prop where
  child : ∀ h, s.client.child = some h → h.proc.vin = vin
  answered : old ≤ s.client.answered.length
  pairs : ∀ x ∈ s.client.answered.drop old, x.req.cmd = .pair → x.resp.ok = true →
    ∃ k, s.world.disk.priv = some (.key k) ∧ (vin, k) ∈ s.world.confirmed

theorem serve_answered (s : Host) (h : Handle) (line : Line) (rest : List Line) (e : ServeEnv) :
    (s.serve h line rest e).client.answered = s.client.answered ++ Host.answers h line (serveLine s.world h.proc line e).2.2 := by
  unfold Host.serve
  dsimp only
  split
  · rename_i hr
    rw [hr]
  · rename_i hr
    rw [hr]
    rfl


/-- Only the child's own loop answers. -/
theorem act_answered (s : Host) (a : Act) :
    (s.act a).client.answered = s.client.answered ∨
    ∃ h line rest e, s.client.child = some h ∧ h.inbox = line :: rest ∧ s.act a = s.serve h line rest e := by
  cases a with
  | move m =>
    have hm := s.moved m
    show (s.move m).client.answered = _ ∨ ∃ h line rest e, _ ∧ _ ∧ s.move m = _
    generalize s.move m = t at hm ⊢
    cases hm with
    | serve e hc hin => exact .inr ⟨_, _, _, e, hc, hin, rfl⟩
    | read hc _ _ => exact .inl (read_answered s _ _ _)
    | _ => exact .inl rfl
  | take => exact .inl (take_answered s)
  | _ => exact .inl rfl

theorem act_vouched {f : Option PrivFile} {vin : String} {old : Nat} {s : Host} {a : Act} (hf : s.Held f) (hf' : (s.act a).Held f)
    (hspawn : ∀ c, a = .spawn c → c.vin = vin) (h : s.Vouched vin old) : (s.act a).Vouched vin old := by
  have hold : ∀ x ∈ s.client.answered.drop old, x.req.cmd = .pair → x.resp.ok = true →
      ∃ k, (s.act a).world.disk.priv = some (.key k) ∧ (vin, k) ∈ (s.act a).world.confirmed := by
    intro x hx hc hok
    obtain ⟨k, hk, hm⟩ := h.pairs x hx hc hok
    exact ⟨k, (hf'.priv.trans hf.priv.symm).trans hk, act_confirmed s a _ hm⟩
  have hchild : ∀ h', (s.act a).client.child = some h' → h'.proc.vin = vin := by
    intro h' hc
    rcases act_vin hc with ⟨x, hx, hp, _⟩ | ⟨c, hs, hp, _⟩
    · exact hp.trans (h.child x hx)
    · exact hp.trans (hspawn c hs)
  rcases act_answered s a with ha | ⟨x, line, rest, e, hx, _, hs⟩
  · exact ⟨hchild, by rw [ha]; exact h.answered, by rw [ha]; exact hold⟩
  · have ha : (s.act a).client.answered = _ := (congrArg (fun t => t.client.answered) hs).trans (serve_answered s x line rest e)
    refine ⟨hchild, ?_, fun y hy hc hok => ?_⟩
    · rw [ha, List.length_append]
      exact Nat.le_add_right_of_le h.answered
    · rw [ha, List.drop_append_of_le_length h.answered] at hy
      rcases List.mem_append.1 hy with hy | hy
      · exact hold y hy hc hok
      · -- the answer of this very step
        rcases serveLine_effect s.world x.proc line e with ⟨hno, _⟩ | ⟨req, resp, rfl, hresp, he⟩
        · unfold Host.answers at hy
          split at hy
          · exact (hno _ rfl).elim
          · cases hy
        · rw [hresp] at hy
          obtain rfl := List.mem_singleton.1 hy
          obtain ⟨k, hk, hm⟩ := he.pair hc hok
          rw [h.child x hx] at hm
          have hw : (s.act a).world = _ := (congrArg Host.world hs).trans (serve_world s x _ rest e)
          rw [hw]
          exact ⟨k, hk, hm⟩

/-- A pair request answered OK: the vehicle with the VIN passed confirmed the key on disk. -/
theorem run_confirms {s : Host} (hq : Quiet s) {c : Call} (hv : ∀ h, s.client.child = some h → h.proc.vin = c.vin) (hc : c.cmd = .pair)
    {e : RunEnv} (hhonest : (Op.run c e).Honest s.client.nextId) (he : e.Moves (· ≠ .unlinkKey)) {out : RunOutcome}
    (ho : (s.run c e).2 = .ok out) (hok : out.ok = true) :
    ∃ k, (s.run c e).1.world.disk.priv = some (.key k) ∧ (c.vin, k) ∈ (s.run c e).1.world.confirmed := by
  have hk : KeepsKey s.world.disk.priv c.cmd c.args := by
    intro hcmd
    rw [hc] at hcmd
    cases hcmd
  have hI := (Host.run_path s c he).inv
    (I := fun t => t.Held s.world.disk.priv ∧ t.Vouched c.vin s.client.answered.length) (fun t a ha ht => ?_) ?_
  · obtain ⟨resp, h, _, hout, _, hans⟩ := (hq.run c e hhonest.1 hhonest.2).ok out ho
    subst hout
    exact hI.2.pairs _ hans hc hok
  · have hheld : (t.act a).Held s.world.disk.priv := by
      refine act_held ht.1 ?_ ?_
      · rintro rfl
        rcases ha with ha | ha <;> simp at ha
      · rintro c' long rfl
        obtain rfl : c' = c := ha
        exact hk
    refine ⟨hheld, act_vouched ht.1 hheld ?_ ht.2⟩
    rintro c' rfl
    obtain rfl : c' = c := ha
    rfl
  · refine ⟨hq.held, hv, Nat.le_refl _, fun x hx => ?_⟩
    rw [List.drop_length] at hx
    cases hx

end ElectricEel.Client
