/-
  ElectricEel.Bluez.Reassembly — whatever bytes arrive (bluez/connection.go `rx`, `flush`).

  Notifications carry any bytes, of any size, at any time. A flush finds an incomplete
  frame, a length that is too long, or a frame (`flush_cases`); what rx leaves in the buffer
  is therefore shorter than two bytes or an incomplete frame of a permitted length.

  Proved: the buffer never holds more than maxMessageSize + 1 bytes; what a call of rx hands
  over are the complete frames at the front of the bytes it has, none longer than
  maxMessageSize; the inbox gets some of them in their order; the loop is over when rx
  returns, and more passes would change nothing (`reassembly_safe`).
-/
import ElectricEel.Bluez.Framing

namespace ElectricEel.Bluez.Framing

/-! ## One flush -/

/-- The length a frame begins with. -/
def declared : Bytes → Option Nat
  | hi :: lo :: _ => some (256 * hi.toNat + lo.toNat)
  | _ => none

/-- Less than a length, or than a frame of that length. -/
def Partial (buf : Bytes) : Prop := ∀ n, declared buf = some n → n ≤ maxMessageSize ∧ buf.length < 2 + n

def Malformed (buf : Bytes) : Prop := ∃ n, declared buf = some n ∧ maxMessageSize < n

theorem Partial.length_le {buf : Bytes} (h : Partial buf) : buf.length ≤ maxMessageSize + 1 := by
  have hmax : maxMessageSize = 1024 := rfl
  cases buf with
  | nil => exact Nat.zero_le _
  | cons hi buf =>
    cases buf with
    | nil => exact Nat.succ_le_succ (Nat.zero_le _)
    | cons lo buf =>
      have hn := h _ rfl
      omega

/-- The length a frame declares is its message's. -/
theorem frame_of_declared {hi lo : UInt8} {buf : Bytes} (h : 256 * hi.toNat + lo.toNat ≤ buf.length) :
    hi :: lo :: buf = frame (buf.take (256 * hi.toNat + lo.toNat)) ++ buf.drop (256 * hi.toNat + lo.toNat) := by
  have hlen : (buf.take (256 * hi.toNat + lo.toNat)).length = 256 * hi.toNat + lo.toNat := by
    rw [List.length_take]
    omega
  have hlo := lo.toNat_lt
  have hhi : UInt8.ofNat ((256 * hi.toNat + lo.toNat) / 256) = hi := by
    have hdiv : (256 * hi.toNat + lo.toNat) / 256 = hi.toNat := by omega
    rw [hdiv, UInt8.ofNat_toNat]
  have hrem : UInt8.ofNat ((256 * hi.toNat + lo.toNat) % 256) = lo := by
    have hmod : (256 * hi.toNat + lo.toNat) % 256 = lo.toNat := by omega
    rw [hmod, UInt8.ofNat_toNat]
  rw [frame, hlen, hhi, hrem, List.cons_append, List.cons_append, List.take_append_drop]

/-- What a flush finds. -/
inductive Flush (room : Nat) (c : Link) : Link × Bool → Prop
  | wait : Partial c.rxBuf → Flush room c (c, false)
  | reset : Malformed c.rxBuf → Flush room c ({ c with rxBuf := [] }, false)
  | frame (d rest : Bytes) : d.length ≤ maxMessageSize → c.rxBuf = frame d ++ rest →
      Flush room c ({ c.deliver room d with rxBuf := rest }, true)

theorem flush_cases (room : Nat) (c : Link) : Flush room c (c.flush room) := by
  unfold Link.flush
  split
  · next hi lo rest hbuf =>
    dsimp only
    split
    · next hlong => exact .reset ⟨_, by rw [hbuf, declared], hlong⟩
    · next hlong =>
      split
      · next hshort =>
        refine .wait fun n hn => ?_
        rw [hbuf, declared] at hn
        cases hn
        rw [hbuf]
        exact ⟨Nat.not_lt.1 hlong, by simp only [List.length_cons]; omega⟩
      · next hshort =>
        have hframe := frame_of_declared (Nat.not_lt.1 hshort)
        refine .frame _ _ ?_ (hbuf.trans hframe)
        rw [List.length_take]
        omega
  · next hbuf =>
    refine .wait fun n hn => ?_
    unfold declared at hn
    split at hn
    · next hb => exact (hbuf _ _ _ hb).elim
    · cases hn

variable {room : Nat}

/-! ## The loop -/

/-- What rx's loop makes of the buffer it finds. -/
structure Drained (c c' : Link) (ds : List Bytes) (rest : Bytes) : Prop where
  split : c.rxBuf = frames ds ++ rest
  sizes : ∀ d ∈ ds, d.length ≤ maxMessageSize
  observed : c'.observed = c.observed ++ ds
  left : c'.rxBuf = rest ∧ Partial rest ∨ c'.rxBuf = [] ∧ Malformed rest

theorem Drained.next {c c' : Link} {d : Bytes} {ds : List Bytes} {rest buf : Bytes} (hd : d.length ≤ maxMessageSize)
    (hbuf : c.rxBuf = frame d ++ buf) (h : Drained { c.deliver room d with rxBuf := buf } c' ds rest) : Drained c c' (d :: ds) rest := by
  refine ⟨?_, ?_, ?_, h.left⟩
  · have hsplit : buf = frames ds ++ rest := h.split
    rw [hbuf, hsplit, frames_cons, List.append_assoc]
  · intro x hx
    rcases List.mem_cons.1 hx with rfl | hx
    · exact hd
    · exact h.sizes x hx
  · have hobs : c'.observed = (c.deliver room d).observed ++ ds := h.observed
    rw [hobs, deliver_observed, List.append_assoc]
    rfl

/-- With as much fuel as bytes the loop comes to its end. -/
theorem flushLoop_drained {fuel : Nat} {c : Link} (hf : c.rxBuf.length < fuel) :
    (∃ ds rest, Drained c (c.flushLoop room fuel) ds rest) ∧ ∀ more, c.flushLoop room (fuel + more) = c.flushLoop room fuel := by
  induction fuel generalizing c with
  | zero => omega
  | succ fuel ih =>
    have hmore : ∀ more, fuel + 1 + more = fuel + more + 1 := by omega
    have hflush := flush_cases room c
    simp only [hmore, Link.flushLoop]
    generalize c.flush room = out at hflush
    cases hflush with
    | wait h => exact ⟨⟨[], c.rxBuf, rfl, fun d hd => absurd hd List.not_mem_nil, (List.append_nil _).symm, .inl ⟨rfl, h⟩⟩, fun _ => rfl⟩
    | reset h => exact ⟨⟨[], c.rxBuf, rfl, fun d hd => absurd hd List.not_mem_nil, (List.append_nil _).symm, .inr ⟨rfl, h⟩⟩, fun _ => rfl⟩
    | frame d buf hd hbuf =>
      have hshort : buf.length < fuel := by
        rw [hbuf, frame, List.length_append, List.length_cons, List.length_cons] at hf
        omega
      obtain ⟨⟨ds, rest, h⟩, hend⟩ := @ih { c.deliver room d with rxBuf := buf } hshort
      exact ⟨⟨d :: ds, rest, h.next hd hbuf⟩, hend⟩

/-! ## The inbox -/

/-- The inbox is behind the observer, and has lost some. -/
def Behind (c : Link) : Prop := (c.received ++ c.inbox).Sublist c.observed

theorem Behind.deliver {c : Link} (h : Behind c) (d : Bytes) : Behind (c.deliver room d) := by
  unfold Link.deliver
  split
  · show (c.received ++ (c.inbox ++ [d])).Sublist (c.observed ++ [d])
    rw [← List.append_assoc]
    exact List.Sublist.append h (List.Sublist.refl _)
  · exact h.trans (List.sublist_append_left _ _)

theorem Behind.flushLoop {fuel : Nat} {c : Link} (h : Behind c) : Behind (c.flushLoop room fuel) := by
  induction fuel generalizing c with
  | zero => exact h
  | succ fuel ih =>
    have hflush := flush_cases room c
    rw [Link.flushLoop]
    generalize c.flush room = out at hflush
    cases hflush with
    | wait _ => exact h
    | reset _ => exact h
    | frame d buf _ _ => exact ih (c := { c.deliver room d with rxBuf := buf }) (h.deliver d)

theorem Behind.step {c : Link} (h : Behind c) (e : Event) : Behind (c.step room e) := by
  cases e with
  | notify now p =>
    have happend : Behind (c.append now p) := h
    exact happend.flushLoop
  | receive =>
    unfold Link.step
    dsimp only
    split
    · exact h
    · next m rest heq =>
      show (c.received ++ [m] ++ rest).Sublist c.observed
      rw [List.append_assoc]
      unfold Behind at h
      rwa [heq] at h

/-! ## Every run -/

/-- What holds between two events. -/
structure Safe (c : Link) : Prop where
  buffer : Partial c.rxBuf
  sizes : ∀ d ∈ c.observed, d.length ≤ maxMessageSize
  behind : Behind c

theorem Drained.safe {c c' : Link} {ds : List Bytes} {rest : Bytes} (h : Drained c c' ds rest)
    (hsizes : ∀ d ∈ c.observed, d.length ≤ maxMessageSize) (hb : Behind c') : Safe c' := by
  refine ⟨?_, ?_, hb⟩
  · rcases h.left with ⟨hbuf, hpart⟩ | ⟨hbuf, _⟩
    · rw [hbuf]
      exact hpart
    · rw [hbuf]
      intro n hn
      cases hn
  · intro d hd
    rw [h.observed] at hd
    rcases List.mem_append.1 hd with hd | hd
    · exact hsizes d hd
    · exact h.sizes d hd

/-- The bytes a call of rx has in its buffer, and what it makes of them. -/
theorem rx_drained (room : Nat) (c : Link) (now : Nat) (p : Bytes) :
    (∃ ds rest, Drained (c.append now p) (c.rx room now p) ds rest) ∧
      ∀ more, (c.append now p).flushLoop room ((c.append now p).rxBuf.length + 1 + more) = c.rx room now p :=
  flushLoop_drained (Nat.lt_succ_self _)

theorem Safe.step {c : Link} (h : Safe c) (e : Event) : Safe (c.step room e) := by
  have hb := @Behind.step room c h.behind e
  cases e with
  | notify now p =>
    obtain ⟨⟨ds, rest, hd⟩, _⟩ := rx_drained room c now p
    exact hd.safe h.sizes hb
  | receive =>
    have hkeep : (c.step room .receive).rxBuf = c.rxBuf ∧ (c.step room .receive).observed = c.observed := by
      unfold Link.step
      dsimp only
      split <;> exact ⟨rfl, rfl⟩
    refine ⟨?_, ?_, hb⟩
    · rw [hkeep.1]
      exact h.buffer
    · rw [hkeep.2]
      exact h.sizes

theorem Safe.run {c : Link} (h : Safe c) (evs : List Event) : Safe (evs.foldl (Link.step room) c) := by
  induction evs generalizing c with
  | nil => exact h
  | cons e evs ih => exact ih (h.step e)

theorem Safe.init : Safe {} := by
  refine ⟨fun n hn => ?_, fun d hd => ?_, List.Sublist.refl _⟩
  · cases hn
  · cases hd

/-- After any notifications, with consumption between: the buffer is a partial frame of a
    permitted length, and the inbox has some of what the observer has, in its order. The
    next notification hands over the frames at the front of the buffer, each as long as
    it says, and leaves a partial frame, or nothing where a length is too long; its loop
    ends by itself. -/
theorem reassembly_safe (room : Nat) (evs : List Event) :
    let c := evs.foldl (Link.step room) {}
    Partial c.rxBuf ∧ c.rxBuf.length ≤ maxMessageSize + 1 ∧ (∀ d ∈ c.observed, d.length ≤ maxMessageSize) ∧
      (c.received ++ c.inbox).Sublist c.observed ∧
      ∀ now p, (∃ ds rest, Drained (c.append now p) (c.rx room now p) ds rest) ∧
        ∀ more, (c.append now p).flushLoop room ((c.append now p).rxBuf.length + 1 + more) = c.rx room now p := by
  intro c
  have h : Safe c := Safe.init.run evs
  exact ⟨h.buffer, h.buffer.length_le, h.sizes, h.behind, rx_drained room c⟩

end ElectricEel.Bluez.Framing
