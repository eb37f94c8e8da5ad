/-
  ElectricEel.Session.AuthInbox — the channel between an RX loop and its responder (main.go
  `enqueueAuthDatagram`, the receive of `authResponderLoop`).

  The producer makes up to three selects for a datagram: it offers it, with the channel full
  it drains one entry, and offers it again. The consumer receives, or gives up, between any
  two of them. The record says what became of the datagrams (ghost lists, oldest first).

  Proved: in every interleaving a call returns after three selects at most and its datagram
  is in the channel or with the consumer, the consumer gets the datagrams in the order of the
  calls and none twice, and without a consumer the channel holds the last `cap` ones
  (`auth_inbox_keeps_newest`).
-/
import ElectricEel.Lib.Chan
import ElectricEel.Lib.Runs

namespace ElectricEel.Session

open Lib

/-- The select of `enqueueAuthDatagram` that is next. -/
inductive Enqueue (α : Type) where
  | idle
  | offer (d : α)
  | drain (d : α)
  | again (d : α)
  deriving DecidableEq, Repr

/-- Selects to go, at most. -/
def Enqueue.left {α : Type} : Enqueue α → Nat
  | .idle => 0
  | .again _ => 1
  | .drain _ => 2
  | .offer _ => 3

def Enqueue.datagram {α : Type} : Enqueue α → Option α
  | .offer d | .drain d | .again d => some d
  | .idle => none

structure AuthInbox (α : Type) (cap : Nat) where
  chan : Chan α cap
  pc : Enqueue α
  /-- The datagrams of the calls that returned. -/
  returned : List α
  received : List α
  evicted : List α
  /-- Those whose last select took its default. -/
  missed : List α

namespace AuthInbox

variable {α : Type} {cap : Nat}

def new : AuthInbox α cap := { chan := .empty, pc := .idle, returned := [], received := [], evicted := [], missed := [] }

inductive Event (α : Type) where
  | call (d : α)
  /-- The producer's next select. -/
  | select
  | receive
  /-- `ctx.Done()`. -/
  | leave

def Event.consumer : Event α → Bool
  | receive | leave => true
  | _ => false

/-- A send went through. -/
def sent (y : AuthInbox α cap) (d : α) (s : Chan α cap × Option α) : AuthInbox α cap :=
  { y with chan := s.1, pc := .idle, returned := y.returned ++ [d], received := y.received ++ s.2.toList }

/-- `enqueueAuthDatagram`, select by select. -/
def select (y : AuthInbox α cap) : AuthInbox α cap :=
  match y.pc with
  | .idle => y
  | .offer d =>
    match y.chan.trySend d with
    | some s => y.sent d s
    | none => { y with pc := .drain d }
  | .drain d =>
    match y.chan.tryReceive with
    | some (c, x) => { y with chan := c, evicted := y.evicted ++ [x], pc := .again d }
    | none => { y with pc := .again d }
  | .again d =>
    match y.chan.trySend d with
    | some s => y.sent d s
    | none => { y with pc := .idle, returned := y.returned ++ [d], missed := y.missed ++ [d] }

def step (y : AuthInbox α cap) : Event α → AuthInbox α cap
  | .call d =>
    match y.pc with
    | .idle => { y with pc := .offer d }
    | _ => y
  | .select => y.select
  | .receive => { y with chan := y.chan.receive.1, received := y.received ++ y.chan.receive.2.toList }
  | .leave => { y with chan := y.chan.leave }

variable (α cap) in
def machine : Machine (AuthInbox α cap) (Event α) := { init := fun y => y = new, step := step }

/-- What a select does. -/
inductive Selects (y : AuthInbox α cap) : AuthInbox α cap → Prop
  | rest : y.pc = .idle → Selects y y
  | sent {d : α} {s : Chan α cap × Option α} : y.pc = .offer d ∨ y.pc = .again d → y.chan.trySend d = some s → Selects y (y.sent d s)
  | full {d : α} : y.pc = .offer d → y.chan.trySend d = none → Selects y { y with pc := .drain d }
  | drained {d x : α} {c : Chan α cap} : y.pc = .drain d → y.chan.tryReceive = some (c, x) →
      Selects y { y with chan := c, evicted := y.evicted ++ [x], pc := .again d }
  | empty {d : α} : y.pc = .drain d → y.chan.tryReceive = none → Selects y { y with pc := .again d }
  | missed {d : α} : y.pc = .again d → y.chan.trySend d = none →
      Selects y { y with pc := .idle, returned := y.returned ++ [d], missed := y.missed ++ [d] }

theorem select_cases (y : AuthInbox α cap) : Selects y y.select := by
  unfold select
  split
  · next hpc => exact .rest hpc
  · next hpc =>
    split
    · next hs => exact .sent (.inl hpc) hs
    · next hs => exact .full hpc hs
  · next hpc =>
    split
    · next hr => exact .drained hpc hr
    · next hr => exact .empty hpc hr
  · next hpc =>
    split
    · next hs => exact .sent (.inr hpc) hs
    · next hs => exact .missed hpc hs

/-! ## What every step keeps -/

structure Kept (y : AuthInbox α cap) : Prop where
  missed : y.missed = []
  room : ∀ d, y.pc = .again d → y.chan.buffer.length < cap
  order : (y.received ++ y.chan.buffer).Sublist y.returned
  recent : y.chan.buffer <:+ y.returned
  ledger : (y.received ++ (y.evicted ++ y.chan.buffer)).Perm y.returned
  /-- The newest datagram is the last to have gone in. -/
  newest : (∀ d, y.pc ≠ .again d) → (y.received ++ y.chan.buffer).getLast? = y.returned.getLast?

namespace Kept

variable {y : AuthInbox α cap}

theorem sent (h : y.Kept) {d : α} {s : Chan α cap × Option α} (hs : y.chan.trySend d = some s) : (y.sent d s).Kept := by
  obtain ⟨c, got⟩ := s
  obtain ⟨hlast, _, _⟩ := Chan.trySend_some hs
  have hin : (y.received ++ got.toList) ++ c.buffer = (y.received ++ y.chan.buffer) ++ [d] := by
    rw [List.append_assoc, hlast, List.append_assoc]
  refine ⟨h.missed, ?_, ?_, ?_, ?_, ?_⟩
  · intro e he
    cases he
  · show ((y.received ++ got.toList) ++ c.buffer).Sublist (y.returned ++ [d])
    rw [hin]
    exact h.order.append_right [d]
  · obtain ⟨t, ht⟩ := h.recent
    refine ⟨t ++ got.toList, ?_⟩
    show t ++ got.toList ++ c.buffer = y.returned ++ [d]
    rw [List.append_assoc, hlast, ← List.append_assoc, ht]
  · show ((y.received ++ got.toList) ++ (y.evicted ++ c.buffer)).Perm (y.returned ++ [d])
    have hswap : ((y.received ++ got.toList) ++ (y.evicted ++ c.buffer)).Perm (y.received ++ (y.evicted ++ (got.toList ++ c.buffer))) := by
      rw [List.append_assoc]
      exact List.perm_append_comm_assoc got.toList y.evicted c.buffer |>.append_left y.received
    refine hswap.trans ?_
    rw [hlast]
    simpa only [List.append_assoc] using h.ledger.append_right [d]
  · intro _
    show ((y.received ++ got.toList) ++ c.buffer).getLast? = (y.returned ++ [d]).getLast?
    rw [hin, List.getLast?_concat, List.getLast?_concat]

theorem drained (h : y.Kept) {d x : α} {c : Chan α cap} (hr : y.chan.tryReceive = some (c, x)) :
    Kept { y with chan := c, evicted := y.evicted ++ [x], pc := .again d } := by
  obtain ⟨hb, _⟩ := Chan.tryReceive_some hr
  have hbound := y.chan.bound
  refine ⟨h.missed, ?_, ?_, ?_, ?_, ?_⟩
  · intro e _
    rw [hb, List.length_cons] at hbound
    exact hbound
  · refine List.Sublist.trans ?_ h.order
    rw [hb]
    exact (List.sublist_cons_self x c.buffer).append_left y.received
  · refine List.IsSuffix.trans ?_ h.recent
    rw [hb]
    exact List.suffix_cons x c.buffer
  · have hl := h.ledger
    rw [hb] at hl
    show (y.received ++ ((y.evicted ++ [x]) ++ c.buffer)).Perm y.returned
    rwa [List.append_assoc y.evicted [x]]
  · intro hne
    exact absurd rfl (hne d)

theorem select (h : y.Kept) (hcap : 1 ≤ cap) : y.select.Kept := by
  have hs := select_cases y
  generalize y.select = z at hs ⊢
  cases hs with
  | rest _ => exact h
  | sent _ hs => exact h.sent hs
  | @full d hpc _ =>
    refine ⟨h.missed, ?_, h.order, h.recent, h.ledger, ?_⟩
    · intro e he
      cases he
    · intro _
      apply h.newest
      simp [hpc]
  | drained _ hr => exact h.drained hr
  | @empty d _ hr =>
    refine ⟨h.missed, ?_, h.order, h.recent, h.ledger, ?_⟩
    · intro e _
      show y.chan.buffer.length < cap
      rw [(Chan.tryReceive_none_iff _).1 hr]
      exact hcap
    · intro hne
      exact absurd rfl (hne d)
  | @missed d hpc hs =>
    -- the consumer only makes more room
    have hfull := ((Chan.trySend_none_iff _ _).1 hs).2
    have hroom := h.room d hpc
    omega

theorem receive (h : y.Kept) : (y.step .receive).Kept := by
  have hin : (y.received ++ y.chan.receive.2.toList) ++ y.chan.receive.1.buffer = y.received ++ y.chan.buffer := by
    rw [List.append_assoc, y.chan.receive_entries]
  have hsuffix : y.chan.receive.1.buffer <:+ y.chan.buffer := ⟨_, y.chan.receive_entries⟩
  refine ⟨h.missed, ?_, ?_, hsuffix.trans h.recent, ?_, ?_⟩
  · intro d hd
    exact Nat.lt_of_le_of_lt hsuffix.length_le (h.room d hd)
  · show ((y.received ++ y.chan.receive.2.toList) ++ y.chan.receive.1.buffer).Sublist y.returned
    rw [hin]
    exact h.order
  · refine List.Perm.trans ?_ h.ledger
    show ((y.received ++ y.chan.receive.2.toList) ++ (y.evicted ++ y.chan.receive.1.buffer)).Perm _
    rw [List.append_assoc]
    refine List.Perm.append_left y.received ?_
    refine (List.perm_append_comm_assoc _ y.evicted _).trans ?_
    rw [y.chan.receive_entries]
  · intro hne
    show ((y.received ++ y.chan.receive.2.toList) ++ y.chan.receive.1.buffer).getLast? = _
    rw [hin]
    exact h.newest hne

theorem step (h : y.Kept) (hcap : 1 ≤ cap) (e : Event α) : (y.step e).Kept := by
  cases e with
  | call d =>
    unfold AuthInbox.step
    dsimp only
    split
    · rename_i hpc
      refine ⟨h.missed, ?_, h.order, h.recent, h.ledger, ?_⟩
      · intro e he
        cases he
      · intro _
        apply h.newest
        simp [hpc]
    · exact h
  | select => exact h.select hcap
  | receive => exact h.receive
  | leave => exact ⟨h.missed, h.room, h.order, h.recent, h.ledger, h.newest⟩

end Kept

theorem kept (hcap : 1 ≤ cap) {ok : AuthInbox α cap → Event α → Prop} {y : AuthInbox α cap} (h : (machine α cap).Reach ok y) : y.Kept := by
  refine h.inv ?_ fun y e hy _ => hy.step hcap e
  rintro y rfl
  refine ⟨rfl, ?_, .slnil, List.suffix_rfl, .nil, fun _ => rfl⟩
  intro d hd
  cases hd

/-! ## A call -/

/-- A call with `d` after those that returned `r`, with `n` selects to go. -/
structure Calling (d : α) (r : List α) (n : Nat) (y : AuthInbox α cap) : Prop where
  left : y.pc.left ≤ n
  going : y.pc.datagram = some d ∧ y.returned = r ∨ y.pc = .idle ∧ y.returned = r ++ [d]

namespace Calling

variable {y : AuthInbox α cap} {d : α} {r : List α} {n : Nat}

theorem select (h : Calling d r (n + 1) y) : Calling d r n y.select := by
  have hleft := h.left
  have hat : ∀ {e}, y.pc.datagram = some e → e = d ∧ y.returned = r := by
    intro e he
    rcases h.going with ⟨hd, hr⟩ | ⟨hidle, _⟩
    · exact ⟨Option.some.inj (he.symm.trans hd), hr⟩
    · rw [hidle] at he
      cases he
  have hs := select_cases y
  generalize y.select = z at hs ⊢
  cases hs with
  | rest hpc =>
    refine ⟨?_, h.going⟩
    rw [hpc]
    exact Nat.zero_le n
  | @sent e s hpc _ =>
    obtain ⟨rfl, hr⟩ : e = d ∧ y.returned = r := by
      rcases hpc with hpc | hpc
      · exact hat (by rw [hpc, Enqueue.datagram])
      · exact hat (by rw [hpc, Enqueue.datagram])
    exact ⟨Nat.zero_le n, .inr ⟨rfl, congrArg (· ++ [e]) hr⟩⟩
  | @full e hpc _ =>
    obtain ⟨rfl, hr⟩ := hat (e := e) (by rw [hpc, Enqueue.datagram])
    rw [hpc] at hleft
    exact ⟨Nat.le_of_succ_le_succ hleft, .inl ⟨rfl, hr⟩⟩
  | @drained e _ _ hpc _ =>
    obtain ⟨rfl, hr⟩ := hat (e := e) (by rw [hpc, Enqueue.datagram])
    rw [hpc] at hleft
    exact ⟨Nat.le_of_succ_le_succ hleft, .inl ⟨rfl, hr⟩⟩
  | @empty e hpc _ =>
    obtain ⟨rfl, hr⟩ := hat (e := e) (by rw [hpc, Enqueue.datagram])
    rw [hpc] at hleft
    exact ⟨Nat.le_of_succ_le_succ hleft, .inl ⟨rfl, hr⟩⟩
  | @missed e hpc _ =>
    obtain ⟨rfl, hr⟩ := hat (e := e) (by rw [hpc, Enqueue.datagram])
    exact ⟨Nat.zero_le n, .inr ⟨rfl, congrArg (· ++ [e]) hr⟩⟩

/-- The consumer leaves the producer where it is. -/
theorem consumer (h : Calling d r n y) {w : List (Event α)} (hw : ∀ e ∈ w, e.consumer) :
    Calling d r n ((machine α cap).run y w) := by
  induction w generalizing y with
  | nil => exact h
  | cons e w ih =>
    have hrest : ∀ e ∈ w, e.consumer := fun e' he' => hw e' (.tail _ he')
    cases e with
    | call _ => cases hw _ (.head _)
    | select => cases hw _ (.head _)
    | receive => exact ih (y := y.step .receive) ⟨h.left, h.going⟩ hrest
    | leave => exact ih (y := y.step .leave) ⟨h.left, h.going⟩ hrest

end Calling

/-- A call, its selects and the consumer before each of them. -/
def calling (d : α) (w₀ w₁ w₂ : List (Event α)) : List (Event α) :=
  .call d :: (w₀ ++ .select :: (w₁ ++ .select :: (w₂ ++ [.select])))

theorem call_returns {y : AuthInbox α cap} (hidle : y.pc = .idle) (d : α) {w₀ w₁ w₂ : List (Event α)} (h₀ : ∀ e ∈ w₀, e.consumer)
    (h₁ : ∀ e ∈ w₁, e.consumer) (h₂ : ∀ e ∈ w₂, e.consumer) :
    ((machine α cap).run y (calling d w₀ w₁ w₂)).pc = .idle ∧
      ((machine α cap).run y (calling d w₀ w₁ w₂)).returned = y.returned ++ [d] := by
  have hcall : Calling d y.returned 3 (y.step (.call d)) := by
    unfold step
    rw [hidle]
    exact ⟨Nat.le_refl _, .inl ⟨rfl, rfl⟩⟩
  have hrun : (machine α cap).run y (calling d w₀ w₁ w₂) =
      ((machine α cap).run ((machine α cap).run ((machine α cap).run (y.step (.call d)) w₀).select w₁).select w₂).select := by
    simp only [calling, Machine.run, List.foldl_cons, List.foldl_append, List.foldl_nil]
    rfl
  rw [hrun]
  have hend := (((hcall.consumer h₀).select.consumer h₁).select.consumer h₂).select
  rcases hend.going with ⟨hd, _⟩ | h
  · -- with no select to go there is no call
    have hleft := hend.left
    generalize ((machine α cap).run _ w₂).select.pc = pc at hd hleft
    cases pc with
    | idle => cases hd
    | offer _ => cases hleft
    | drain _ => cases hleft
    | again _ => cases hleft
  · exact h

/-! ## Without a consumer -/

/-- The buffer is as long as it can be. -/
structure Alone (y : AuthInbox α cap) : Prop where
  waiting : y.chan.waiting = false
  full : ∀ d, y.pc = .drain d → y.chan.buffer.length = cap
  drained : ∀ d, y.pc = .again d → y.chan.buffer.length + 1 = cap ∧ cap ≤ y.returned.length
  held : (∀ d, y.pc ≠ .again d) → y.chan.buffer.length = min cap y.returned.length

namespace Alone

variable {y : AuthInbox α cap}

theorem sent (h : y.Alone) {d : α} {s : Chan α cap × Option α} (hs : y.chan.trySend d = some s)
    (hlen : y.chan.buffer.length + 1 = min cap (y.returned.length + 1)) : (y.sent d s).Alone := by
  obtain ⟨c, got⟩ := s
  obtain ⟨hlast, hw, hgot⟩ := Chan.trySend_some hs
  refine ⟨hw, ?_, ?_, ?_⟩
  · intro e he
    cases he
  · intro e he
    cases he
  · intro _
    show c.buffer.length = min cap (y.returned ++ [d]).length
    rw [hgot h.waiting] at hlast
    rw [show c.buffer = y.chan.buffer ++ [d] from hlast, List.length_append, List.length_append]
    exact hlen

theorem select (h : y.Alone) (hcap : 1 ≤ cap) : y.select.Alone := by
  have hs := select_cases y
  generalize y.select = z at hs ⊢
  cases hs with
  | rest _ => exact h
  | @sent d s hpc hs =>
    refine h.sent hs ?_
    rcases hpc with hpc | hpc
    · have hheld := h.held (by simp [hpc])
      have hroom : y.chan.buffer.length ≠ cap := by
        intro hfull
        rw [(Chan.trySend_none_iff _ d).2 ⟨h.waiting, hfull⟩] at hs
        cases hs
      omega
    · obtain ⟨hlen, hret⟩ := h.drained d hpc
      omega
  | @full d hpc hs =>
    have hfull := ((Chan.trySend_none_iff _ _).1 hs).2
    refine ⟨h.waiting, fun _ _ => hfull, ?_, fun _ => h.held (by simp [hpc])⟩
    intro e he
    cases he
  | @drained d x c hpc hr =>
    have hfull := h.full d hpc
    have hheld := h.held (by simp [hpc])
    obtain ⟨hb, hw⟩ := Chan.tryReceive_some hr
    rw [hb, List.length_cons] at hfull hheld
    refine ⟨hw.trans h.waiting, ?_, ?_, ?_⟩
    · intro e he
      cases he
    · intro e _
      refine ⟨hfull, ?_⟩
      show cap ≤ y.returned.length
      omega
    · intro hne
      exact absurd rfl (hne d)
  | @empty d hpc hr =>
    have hfull := h.full d hpc
    rw [(Chan.tryReceive_none_iff _).1 hr, List.length_nil] at hfull
    omega
  | @missed d hpc hs =>
    have hfull := ((Chan.trySend_none_iff _ _).1 hs).2
    obtain ⟨hlen, _⟩ := h.drained d hpc
    omega

theorem step (h : y.Alone) (hcap : 1 ≤ cap) {e : Event α} (he : e.consumer = false) : (y.step e).Alone := by
  cases e with
  | call d =>
    unfold AuthInbox.step
    dsimp only
    split
    · rename_i hpc
      refine ⟨h.waiting, ?_, ?_, ?_⟩
      · intro e he
        cases he
      · intro e he
        cases he
      · intro _
        apply h.held
        simp [hpc]
    · exact h
  | select => exact h.select hcap
  | receive => cases he
  | leave => cases he

end Alone

theorem alone (hcap : 1 ≤ cap) {y : AuthInbox α cap} (h : (machine α cap).Reach (fun _ e => e.consumer = false) y) : y.Alone := by
  refine h.inv ?_ fun y e hy he => hy.step hcap he
  rintro y rfl
  refine ⟨rfl, ?_, ?_, ?_⟩
  · intro d hd
    cases hd
  · intro d hd
    cases hd
  · intro _
    exact (Nat.min_eq_right (Nat.zero_le cap)).symm

/-- Every call keeps its datagram, the consumer gets them in order and each once; the buffer
    holds the newest, and without a consumer as many as it can. -/
theorem auth_inbox_keeps_newest (hcap : 1 ≤ cap) :
    (∀ y : AuthInbox α cap, (machine α cap).Reach (fun _ _ => True) y →
      (y.missed = [] ∧ y.received.Sublist y.returned ∧ (y.received ++ (y.evicted ++ y.chan.buffer)).Perm y.returned ∧
        y.chan.buffer <:+ y.returned) ∧
      (y.pc = .idle → ∀ d w₀ w₁ w₂, (∀ e ∈ w₀ ++ (w₁ ++ w₂), e.consumer) →
        let z := (machine α cap).run y (calling d w₀ w₁ w₂)
        z.pc = .idle ∧ z.returned = y.returned ++ [d] ∧ (z.received ++ z.chan.buffer).getLast? = some d)) ∧
    ∀ y : AuthInbox α cap, (machine α cap).Reach (fun _ e => e.consumer = false) y → y.pc = .idle →
      y.chan.buffer = y.returned.drop (y.returned.length - cap) := by
  refine ⟨fun y h => ⟨?_, ?_⟩, ?_⟩
  · have hk := kept hcap h
    exact ⟨hk.missed, (List.sublist_append_left _ _).trans hk.order, hk.ledger, hk.recent⟩
  · intro hidle d w₀ w₁ w₂ hw z
    obtain ⟨hpc, hr⟩ := call_returns hidle d (fun e he => hw e (List.mem_append_left _ he))
      (fun e he => hw e (List.mem_append_right _ (List.mem_append_left _ he)))
      fun e he => hw e (List.mem_append_right _ (List.mem_append_right _ he))
    have hk := kept hcap (h.run (calling d w₀ w₁ w₂) (.of_forall (fun _ _ => trivial) _ _))
    refine ⟨hpc, hr, ?_⟩
    rw [hk.newest fun e he => ?_, hr, List.getLast?_concat]
    rw [hpc] at he
    cases he
  · intro y h hidle
    have hk := kept hcap h
    have hlen : y.chan.buffer.length = min cap y.returned.length := by
      apply (alone hcap h).held
      simp [hidle]
    rw [List.suffix_iff_eq_drop.1 hk.recent]
    congr 1
    omega

/-- Three calls on a channel of two. -/
theorem keeps_second_and_third :
    ((machine Nat 2).run new (calling 1 [] [] [] ++ (calling 2 [] [] [] ++ calling 3 [] [] []))).chan.buffer = [2, 3] := by
  have h : (machine Nat 2).Reach (fun _ e => e.consumer = false)
      ((machine Nat 2).run new (calling 1 [] [] [] ++ (calling 2 [] [] [] ++ calling 3 [] [] []))) :=
    Machine.Reach.run (M := machine Nat 2) (.init rfl) _ (by decide)
  exact (auth_inbox_keeps_newest (by decide)).2 _ h rfl

/-- With no buffer and the consumer away the datagram is lost. -/
example : ((machine Nat 0).run new (calling 1 [] [] [])).missed = [1] := rfl

end AuthInbox

end ElectricEel.Session
