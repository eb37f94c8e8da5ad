/-
  ElectricEel.Bluez.Framing — messages over a GATT link (bluez/connection.go `Send`, `rx`,
  `flush`).

  A message is framed by its length in two bytes and written in chunks. The environment
  says at each pass of the loop whether the context has expired and whether the write
  succeeds; a failed write leaves nothing on the wire. The receiver gets the bytes in
  notifications cut anywhere, each at its time; its consumer takes messages from the inbox
  between them.

  Proved: a Send that returns nil has written its frame in chunks within the block
  length in force, which falls to 20 at the first failed write, and every Send ends within
  one write more than its frame has bytes (`sendLoop_spec`); the receiver's observer sees
  the messages whose frames arrive, and the inbox has those it had room for (`Framed.run`,
  `framing_roundTrip`).
-/
import Mathlib.Data.List.Basic

namespace ElectricEel.Bluez.Framing

abbrev Bytes := List UInt8

def maxMessageSize : Nat := 1024

def defaultMTU : Nat := 23

/-- In milliseconds. -/
def rxTimeout : Nat := 1000

/-! ## Send -/

/-- One pass of the loop. -/
inductive Outcome where
  /-- The context has expired before the write. -/
  | expired
  | written
  | failed
  /-- The write fails and the context has expired. -/
  | failedExpired
  deriving DecidableEq, Repr

inductive SendError where
  | ctx
  | write
  deriving DecidableEq, Repr

structure Write where
  /-- The block length in force. -/
  blockLength : Nat
  chunk : Bytes
  written : Bool
  deriving DecidableEq, Repr

structure Sent where
  err : Option SendError
  blockLength : Nat
  writes : List Write
  deriving DecidableEq, Repr

/-- A two-byte big-endian length and the message. -/
def frame (buffer : Bytes) : Bytes :=
  UInt8.ofNat (buffer.length / 256) :: UInt8.ofNat (buffer.length % 256) :: buffer

/-- `o i` is what happens at pass i; none: the fuel does not last. -/
def sendLoop (o : Nat → Outcome) : Nat → Nat → Nat → Bytes → Option Sent
  | _, _, blockLength, [] => some { err := none, blockLength, writes := [] }
  | 0, _, _, _ => none
  | fuel + 1, i, blockLength, out =>
    let chunk := out.take (min blockLength out.length)
    match o i with
    | .expired => some { err := some .ctx, blockLength, writes := [] }
    | .failedExpired => some { err := some .ctx, blockLength, writes := [⟨blockLength, chunk, false⟩] }
    | .failed =>
      if blockLength ≤ defaultMTU - 3 then some { err := some .write, blockLength, writes := [⟨blockLength, chunk, false⟩] }
      else
        -- fall back to the guaranteed chunk size and retry
        (sendLoop o fuel (i + 1) (defaultMTU - 3) out).map fun r => { r with writes := ⟨blockLength, chunk, false⟩ :: r.writes }
    | .written =>
      (sendLoop o fuel (i + 1) blockLength (out.drop chunk.length)).map fun r =>
        { r with writes := ⟨blockLength, chunk, true⟩ :: r.writes }

def send (o : Nat → Outcome) (blockLength : Nat) (buffer : Bytes) : Option Sent :=
  sendLoop o ((frame buffer).length + 1) 0 blockLength (frame buffer)

/-- One Send after the other, each with its own passes. -/
def sendAll : Nat → List (Bytes × (Nat → Outcome)) → Option (List Sent)
  | _, [] => some []
  | blockLength, (buffer, o) :: rest =>
    (send o blockLength buffer).bind fun r => (sendAll r.blockLength rest).map (r :: ·)

/-- The bytes on the wire. -/
def stream (writes : List Write) : Bytes := (writes.filter (·.written)).flatMap (·.chunk)

/-! ## rx and flush -/

structure Link where
  rxBuf : Bytes := []
  /-- none: the zero time. -/
  lastRx : Option Nat := none
  inbox : List Bytes := []
  /-- What the observer was called with. -/
  observed : List Bytes := []
  /-- What the consumer took from the inbox. -/
  received : List Bytes := []
  /-- What found no room in the inbox. -/
  dropped : List Bytes := []
  deriving DecidableEq, Repr

variable (room : Nat)

/-- The observer, then the inbox if it has room. -/
def Link.deliver (c : Link) (buf : Bytes) : Link :=
  if c.inbox.length < room then { c with observed := c.observed ++ [buf], inbox := c.inbox ++ [buf] }
  else { c with observed := c.observed ++ [buf], dropped := c.dropped ++ [buf] }

/-- The link and whether to flush again. -/
def Link.flush (c : Link) : Link × Bool :=
  match c.rxBuf with
  | hi :: lo :: rest =>
    let msgLength := 256 * hi.toNat + lo.toNat
    if maxMessageSize < msgLength then ({ c with rxBuf := [] }, false)
    else if rest.length < msgLength then (c, false)
    else ({ c.deliver room (rest.take msgLength) with rxBuf := rest.drop msgLength }, true)
  | _ => (c, false)

def Link.flushLoop : Nat → Link → Link
  | 0, c => c
  | fuel + 1, c =>
    match c.flush room with
    | (c, true) => flushLoop fuel c
    | (c, false) => c

/-- Every flush takes two bytes, so the buffer's length is enough fuel. -/
def Link.rx (c : Link) (now : Nat) (p : Bytes) : Link :=
  let rxBuf := match c.lastRx with
    | some last => if rxTimeout < now - last then [] else c.rxBuf
    | none => []
  let c := { c with rxBuf := rxBuf ++ p, lastRx := some now }
  c.flushLoop room (c.rxBuf.length + 1)

/-- rx up to its loop. -/
def Link.append (c : Link) (now : Nat) (p : Bytes) : Link :=
  { c with
    rxBuf := (match c.lastRx with
      | some last => if rxTimeout < now - last then [] else c.rxBuf
      | none => []) ++ p
    lastRx := some now }

inductive Event where
  | notify (now : Nat) (p : Bytes)
  /-- The consumer takes a message. -/
  | receive
  deriving DecidableEq, Repr

def Link.step (c : Link) : Event → Link
  | .notify now p => c.rx room now p
  | .receive =>
    match c.inbox with
    | [] => c
    | m :: rest => { c with inbox := rest, received := c.received ++ [m] }

def notified (evs : List Event) : Bytes := evs.flatMap fun e => match e with | .notify _ p => p | .receive => []

/-- No notification comes later than `rxTimeout` after the one before it. -/
def NoGap : Option Nat → List Event → Prop
  | _, [] => True
  | last, .notify now _ :: evs => (∀ t, last = some t → now - t ≤ rxTimeout) ∧ NoGap (some now) evs
  | last, .receive :: evs => NoGap last evs

/-! ## What Send writes -/

/-- The block length after some writes; a failed one lowers it to 20. -/
def inForce (blockLength : Nat) (writes : List Write) : Nat :=
  writes.foldl (fun b w => if w.written then b else 20) blockLength

/-- Every chunk fits the block length in force. -/
def Fits : Nat → List Write → Prop
  | _, [] => True
  | blockLength, w :: ws =>
    w.blockLength = blockLength ∧ w.chunk.length ≤ blockLength ∧ Fits (if w.written then blockLength else 20) ws

theorem Fits.append {b : Nat} {ws ws' : List Write} (h : Fits b ws) (h' : Fits (inForce b ws) ws') : Fits b (ws ++ ws') := by
  induction ws generalizing b with
  | nil => exact h'
  | cons w ws ih => exact ⟨h.1, h.2.1, ih h.2.2 h'⟩

theorem Fits.chunk_le {b : Nat} {ws : List Write} (h : Fits b ws) : ∀ w ∈ ws, w.chunk.length ≤ w.blockLength := by
  induction ws generalizing b with
  | nil => exact fun w hw => absurd hw List.not_mem_nil
  | cons w ws ih =>
    intro x hx
    rcases List.mem_cons.1 hx with rfl | hx
    · rw [h.1]
      exact h.2.1
    · exact ih h.2.2 x hx

theorem Fits.le_20 {ws : List Write} (h : Fits 20 ws) : ∀ w ∈ ws, w.chunk.length ≤ 20 := by
  induction ws with
  | nil => exact fun w hw => absurd hw List.not_mem_nil
  | cons w ws ih =>
    have hrest : Fits 20 ws := by
      have hr := h.2.2
      rwa [ite_self] at hr
    intro x hx
    rcases List.mem_cons.1 hx with rfl | hx
    · exact h.2.1
    · exact ih hrest x hx

/-- After a failed write every chunk has at most 20 bytes. -/
theorem Fits.after_failure {b : Nat} {pre post : List Write} {w : Write} (h : Fits b (pre ++ w :: post))
    (hw : w.written = false) : ∀ x ∈ post, x.chunk.length ≤ 20 := by
  induction pre generalizing b with
  | nil =>
    have hpost := h.2.2
    rw [hw] at hpost
    exact Fits.le_20 hpost
  | cons u pre ih => exact ih h.2.2

theorem stream_cons (w : Write) (ws : List Write) : stream (w :: ws) = (if w.written then w.chunk else []) ++ stream ws := by
  cases hw : w.written <;> simp [stream, hw]

theorem stream_append (ws ws' : List Write) : stream (ws ++ ws') = stream ws ++ stream ws' := by
  simp [stream]

/-- A retry is one write more. -/
def retries (blockLength : Nat) : Nat := if blockLength ≤ 20 then 0 else 1

/-- What one Send does: at most one write more than its bytes, chunks that fit and, where
    it returns nil, exactly its bytes on the wire. -/
structure SendSpec (blockLength : Nat) (out : Bytes) (r : Sent) : Prop where
  writes : r.writes.length ≤ out.length + retries blockLength
  fits : Fits blockLength r.writes
  least : 20 ≤ r.blockLength
  stream : r.err = none → stream r.writes = out
  inForce : r.err = none → r.blockLength = inForce blockLength r.writes

theorem sendLoop_spec (o : Nat → Outcome) {fuel i blockLength : Nat} {out : Bytes} (hb : 20 ≤ blockLength)
    (hf : out.length + retries blockLength ≤ fuel) :
    ∃ r, sendLoop o fuel i blockLength out = some r ∧ SendSpec blockLength out r := by
  induction fuel generalizing i blockLength out with
  | zero =>
    cases out with
    | nil => exact ⟨{ err := none, blockLength, writes := [] }, rfl, Nat.zero_le _, trivial, hb, fun _ => rfl, fun _ => rfl⟩
    | cons b out =>
      rw [List.length_cons] at hf
      omega
  | succ fuel ih =>
    cases hout : out with
    | nil =>
      exact ⟨{ err := none, blockLength, writes := [] }, by rw [sendLoop], Nat.zero_le _, trivial, hb, fun _ => rfl, fun _ => rfl⟩
    | cons b bs =>
      rw [← hout]
      have hpos : 0 < out.length := by rw [hout]; exact Nat.succ_pos _
      have hne : out ≠ [] := by rw [hout]; exact List.cons_ne_nil _ _
      let chunk := out.take (min blockLength out.length)
      have hchunk : chunk.length = min blockLength out.length := by
        rw [List.length_take]
        omega
      rw [sendLoop]
      · cases ho : o i with
        | expired =>
          exact ⟨{ err := some .ctx, blockLength, writes := [] }, rfl, Nat.zero_le _, trivial, hb, fun h => (by cases h), fun h => (by cases h)⟩
        | failedExpired =>
          refine ⟨_, rfl, ?_, ⟨rfl, ?_, trivial⟩, hb, fun h => (by cases h), fun h => (by cases h)⟩
          · show 1 ≤ _
            omega
          · show chunk.length ≤ _
            omega
        | failed =>
          dsimp only
          by_cases hsmall : blockLength ≤ defaultMTU - 3
          · rw [if_pos hsmall]
            refine ⟨_, rfl, ?_, ⟨rfl, ?_, trivial⟩, hb, fun h => (by cases h), fun h => (by cases h)⟩
            · show 1 ≤ _
              omega
            · show chunk.length ≤ _
              omega
          · have hbig : ¬blockLength ≤ 20 := hsmall
            have hr1 : retries blockLength = 1 := if_neg hbig
            have hr0 : retries 20 = 0 := rfl
            obtain ⟨r, hr, hspec⟩ := @ih (i + 1) 20 out (Nat.le_refl _) (by omega)
            have h20 : defaultMTU - 3 = 20 := rfl
            rw [if_neg hsmall, h20, hr]
            refine ⟨_, rfl, ?_, ⟨rfl, ?_, hspec.fits⟩, hspec.least, ?_, hspec.inForce⟩
            · have hw := hspec.writes
              show r.writes.length + 1 ≤ _
              omega
            · show chunk.length ≤ _
              omega
            · intro herr
              rw [stream_cons]
              exact hspec.stream herr
        | written =>
          have hdrop : (out.drop chunk.length).length + 1 ≤ out.length := by
            rw [List.length_drop]
            omega
          obtain ⟨r, hr, hspec⟩ := @ih (i + 1) blockLength (out.drop chunk.length) hb (by omega)
          dsimp only
          rw [hr]
          refine ⟨_, rfl, ?_, ⟨rfl, ?_, hspec.fits⟩, hspec.least, ?_, hspec.inForce⟩
          · have hw := hspec.writes
            show r.writes.length + 1 ≤ _
            omega
          · show chunk.length ≤ _
            omega
          · intro herr
            rw [stream_cons, hspec.stream herr]
            show chunk ++ _ = out
            rw [hchunk]
            exact List.take_append_drop _ _
      · exact hne

theorem send_spec (o : Nat → Outcome) {blockLength : Nat} (hb : 20 ≤ blockLength) (buffer : Bytes) :
    ∃ r, send o blockLength buffer = some r ∧ SendSpec blockLength (frame buffer) r := by
  refine sendLoop_spec o hb ?_
  unfold retries
  split <;> omega

def allWrites (rs : List Sent) : List Write := rs.flatMap (·.writes)

/-- The frames of the messages, one behind the other. -/
def frames (msgs : List Bytes) : Bytes := msgs.flatMap frame

/-- Every Send ends; where all return nil, the frames are on the wire. -/
theorem sendAll_spec {blockLength : Nat} (hb : 20 ≤ blockLength) (msgs : List (Bytes × (Nat → Outcome))) :
    ∃ rs, sendAll blockLength msgs = some rs ∧
      (allWrites rs).length ≤ (frames (msgs.map (·.1))).length + msgs.length ∧
      (∀ w ∈ allWrites rs, w.chunk.length ≤ w.blockLength) ∧
      ((∀ r ∈ rs, r.err = none) → Fits blockLength (allWrites rs) ∧ stream (allWrites rs) = frames (msgs.map (·.1))) := by
  induction msgs generalizing blockLength with
  | nil => exact ⟨[], rfl, Nat.le_refl _, fun w hw => absurd hw List.not_mem_nil, fun _ => ⟨trivial, rfl⟩⟩
  | cons m msgs ih =>
    obtain ⟨buffer, o⟩ := m
    obtain ⟨r, hr, hspec⟩ := send_spec o hb buffer
    obtain ⟨rs, hrs, hlen, hle, hnil⟩ := ih hspec.least
    have hall : allWrites (r :: rs) = r.writes ++ allWrites rs := rfl
    have hframes : frames (buffer :: msgs.map (·.1)) = frame buffer ++ frames (msgs.map (·.1)) := rfl
    refine ⟨r :: rs, by rw [sendAll, hr, Option.bind_some, hrs]; rfl, ?_, ?_, ?_⟩
    · have hw := hspec.writes
      have hone : retries blockLength ≤ 1 := by
        unfold retries
        split <;> omega
      rw [hall, List.map_cons, hframes, List.length_append, List.length_append, List.length_cons]
      omega
    · intro w hw
      rw [hall] at hw
      rcases List.mem_append.1 hw with hw | hw
      · exact hspec.fits.chunk_le w hw
      · exact hle w hw
    · intro herr
      have hr0 : r.err = none := herr r List.mem_cons_self
      obtain ⟨hfits, hstream⟩ := hnil fun x hx => herr x (List.mem_cons_of_mem r hx)
      rw [hall, List.map_cons, hframes]
      refine ⟨hspec.fits.append ?_, ?_⟩
      · rw [← hspec.inForce hr0]
        exact hfits
      · rw [stream_append, hspec.stream hr0, hstream]

/-! ## What arrives -/

theorem frame_header {m : Bytes} (h : m.length ≤ maxMessageSize) :
    256 * (UInt8.ofNat (m.length / 256)).toNat + (UInt8.ofNat (m.length % 256)).toNat = m.length := by
  have hmax : maxMessageSize = 1024 := rfl
  rw [UInt8.toNat_ofNat', UInt8.toNat_ofNat']
  omega

theorem frames_cons (m : Bytes) (ms : List Bytes) : frames (m :: ms) = frame m ++ frames ms := rfl

/-- What the link has seen of the messages: those delivered, and the bytes in the buffer,
    which with the bytes to come are the frames of the others. -/
structure Framed (msgs : List Bytes) (c : Link) (future : Bytes) : Prop where
  rest : ∃ rest, msgs = c.observed ++ rest ∧ c.rxBuf ++ future = frames rest
  inbox : c.dropped = [] → c.received ++ c.inbox = c.observed

variable {room : Nat} {msgs : List Bytes}

@[simp] theorem deliver_rxBuf (c : Link) (buf : Bytes) : (c.deliver room buf).rxBuf = c.rxBuf := by
  unfold Link.deliver
  split <;> rfl

@[simp] theorem deliver_observed (c : Link) (buf : Bytes) : (c.deliver room buf).observed = c.observed ++ [buf] := by
  unfold Link.deliver
  split <;> rfl

@[simp] theorem deliver_lastRx (c : Link) (buf : Bytes) : (c.deliver room buf).lastRx = c.lastRx := by
  unfold Link.deliver
  split <;> rfl

theorem deliver_inbox {c : Link} (h : c.dropped = [] → c.received ++ c.inbox = c.observed) (buf : Bytes) :
    (c.deliver room buf).dropped = [] →
      (c.deliver room buf).received ++ (c.deliver room buf).inbox = (c.deliver room buf).observed := by
  unfold Link.deliver
  split
  · intro hd
    show c.received ++ (c.inbox ++ [buf]) = c.observed ++ [buf]
    rw [← List.append_assoc, h hd]
  · intro hd
    exact absurd hd (by simp)

/-- A flush delivers the next message, or its frame is not complete. -/
theorem flush_framed {c : Link} {future : Bytes} (hsize : ∀ m ∈ msgs, m.length ≤ maxMessageSize) (h : Framed msgs c future) :
    Framed msgs (c.flush room).1 future ∧ (c.flush room).1.lastRx = c.lastRx ∧
      (if (c.flush room).2 then (c.flush room).1.rxBuf.length < c.rxBuf.length
        else (c.flush room).1 = c ∧ (future = [] → c.rxBuf = [])) := by
  obtain ⟨rest, hmsgs, hbuf⟩ := h.rest
  cases rest with
  | nil =>
    have hnil : c.rxBuf = [] := (List.append_eq_nil_iff.1 hbuf).1
    have hflush : c.flush room = (c, false) := by simp only [Link.flush, hnil]
    rw [hflush]
    exact ⟨h, rfl, rfl, fun _ => hnil⟩
  | cons m rest =>
    rw [frames_cons, frame] at hbuf
    have hm : m.length ≤ maxMessageSize := hsize m (by rw [hmsgs]; simp)
    cases hb : c.rxBuf with
    | nil =>
      have hflush : c.flush room = (c, false) := by simp only [Link.flush, hb]
      rw [hflush]
      exact ⟨h, rfl, rfl, fun _ => rfl⟩
    | cons hi tail =>
      cases tail with
      | nil =>
        have hflush : c.flush room = (c, false) := by simp only [Link.flush, hb]
        rw [hflush]
        refine ⟨h, rfl, rfl, ?_⟩
        intro hf
        rw [hb, hf] at hbuf
        simp at hbuf
      | cons lo buf =>
        rw [hb] at hbuf
        simp only [List.cons_append, List.cons.injEq] at hbuf
        obtain ⟨rfl, rfl, hbuf⟩ := hbuf
        have hflush : c.flush room =
            if buf.length < m.length then (c, false)
            else ({ c.deliver room (buf.take m.length) with rxBuf := buf.drop m.length }, true) := by
          simp only [Link.flush, hb, frame_header hm, if_neg (Nat.not_lt.2 hm)]
        by_cases hshort : buf.length < m.length
        · rw [hflush, if_pos hshort]
          refine ⟨h, rfl, rfl, ?_⟩
          intro hf
          have hlen := congrArg List.length hbuf
          rw [hf, List.append_nil, List.length_append] at hlen
          omega
        · have hle : m.length ≤ buf.length := Nat.not_lt.1 hshort
          have htake : buf.take m.length = m := by
            have ht := congrArg (List.take m.length) hbuf
            rwa [List.take_append_of_le_length hle, List.take_left] at ht
          have hdrop : buf.drop m.length ++ future = frames rest := by
            have hd := congrArg (List.drop m.length) hbuf
            rwa [List.drop_append_of_le_length hle, List.drop_left] at hd
          rw [hflush, if_neg hshort, htake]
          refine ⟨⟨⟨rest, ?_, hdrop⟩, deliver_inbox h.inbox m⟩, deliver_lastRx c m, ?_⟩
          · rw [hmsgs]
            simp
          · show (buf.drop m.length).length < (_ :: _ :: buf).length
            rw [List.length_drop, List.length_cons, List.length_cons]
            omega

/-- The loop ends with what is left of the frames in the buffer. -/
theorem flushLoop_framed {fuel : Nat} {c : Link} {future : Bytes} (hsize : ∀ m ∈ msgs, m.length ≤ maxMessageSize)
    (h : Framed msgs c future) (hf : c.rxBuf.length < fuel) :
    Framed msgs (c.flushLoop room fuel) future ∧ (c.flushLoop room fuel).lastRx = c.lastRx ∧
      (future = [] → (c.flushLoop room fuel).rxBuf = []) := by
  induction fuel generalizing c with
  | zero => omega
  | succ fuel ih =>
    obtain ⟨hframed, hlast, hstep⟩ := @flush_framed room msgs c future hsize h
    rw [Link.flushLoop]
    split
    · rename_i c' heq
      rw [heq] at hframed hlast hstep
      have hlt : c'.rxBuf.length < c.rxBuf.length := hstep
      have hfuel : c'.rxBuf.length < fuel := by omega
      obtain ⟨h1, h2, h3⟩ := ih hframed hfuel
      exact ⟨h1, h2.trans hlast, h3⟩
    · rename_i c' heq
      rw [heq] at hframed hlast hstep
      obtain ⟨hsame, hend⟩ := hstep
      have hc : c' = c := hsame
      rw [hc] at hframed
      rw [hc]
      exact ⟨hframed, rfl, hend⟩

theorem Framed.rx {c : Link} {now : Nat} {p future : Bytes} (hsize : ∀ m ∈ msgs, m.length ≤ maxMessageSize)
    (h : Framed msgs c (p ++ future)) (hfresh : c.lastRx = none → c.rxBuf = [])
    (hgap : ∀ t, c.lastRx = some t → now - t ≤ rxTimeout) :
    Framed msgs (c.rx room now p) future ∧ (c.rx room now p).lastRx = some now ∧ (future = [] → (c.rx room now p).rxBuf = []) := by
  obtain ⟨rest, hmsgs, hbuf⟩ := h.rest
  have hkeep : (match c.lastRx with
      | some last => if rxTimeout < now - last then [] else c.rxBuf
      | none => []) = c.rxBuf := by
    cases hl : c.lastRx with
    | none => exact (hfresh hl).symm
    | some last => exact if_neg (Nat.not_lt.2 (hgap last hl))
  have hin : Framed msgs { c with rxBuf := c.rxBuf ++ p, lastRx := some now } future :=
    ⟨⟨rest, hmsgs, by rw [← hbuf, List.append_assoc]⟩, h.inbox⟩
  unfold Link.rx
  dsimp only
  rw [hkeep]
  exact flushLoop_framed hsize hin (Nat.lt_succ_self _)

theorem Framed.receive {c : Link} {future : Bytes} (h : Framed msgs c future) : Framed msgs (c.step room .receive) future := by
  unfold Link.step
  dsimp only
  split
  · exact h
  · rename_i m rest heq
    refine ⟨h.rest, ?_⟩
    intro hd
    have hi := h.inbox hd
    rw [heq] at hi
    show c.received ++ [m] ++ rest = c.observed
    rw [List.append_assoc]
    exact hi

/-- Notifications that carry the frames, however they are cut, with consumption between. -/
theorem Framed.run {c : Link} {evs : List Event} {future : Bytes} (hsize : ∀ m ∈ msgs, m.length ≤ maxMessageSize)
    (h : Framed msgs c (notified evs ++ future)) (hfresh : c.lastRx = none → c.rxBuf = []) (hgap : NoGap c.lastRx evs)
    (hend : notified evs ++ future = [] → c.rxBuf = []) :
    Framed msgs (evs.foldl (Link.step room) c) future ∧ (future = [] → (evs.foldl (Link.step room) c).rxBuf = []) := by
  induction evs generalizing c with
  | nil => exact ⟨h, hend⟩
  | cons e evs ih =>
    rw [List.foldl_cons]
    cases e with
    | notify now p =>
      have hsplit : notified (.notify now p :: evs) ++ future = p ++ (notified evs ++ future) := List.append_assoc _ _ _
      rw [hsplit] at h
      obtain ⟨hf, hl, he⟩ := @Framed.rx room msgs c now p (notified evs ++ future) hsize h hfresh hgap.1
      have hstep : c.step room (.notify now p) = c.rx room now p := rfl
      rw [hstep]
      exact ih hf (fun hn => by rw [hl] at hn; cases hn) (by rw [hl]; exact hgap.2) he
    | receive =>
      have hlast : (c.step room .receive).lastRx = c.lastRx ∧ (c.step room .receive).rxBuf = c.rxBuf := by
        unfold Link.step
        dsimp only
        split <;> exact ⟨rfl, rfl⟩
      refine ih h.receive ?_ (by rw [hlast.1]; exact hgap) ?_
      · rw [hlast.1, hlast.2]
        exact hfresh
      · rw [hlast.2]
        exact hend

/-- Messages whose Sends return nil reach the observer, and the inbox as long as it has
    room, however their bytes are cut into notifications; chunks fit the block length in
    force, 20 bytes after a failed write, and there are finitely many. -/
theorem framing_roundTrip (room blockLength : Nat) (hb : 20 ≤ blockLength) (msgs : List (Bytes × (Nat → Outcome)))
    (hsize : ∀ m ∈ msgs, m.1.length ≤ maxMessageSize) :
    ∃ rs, sendAll blockLength msgs = some rs ∧
      (allWrites rs).length ≤ (frames (msgs.map (·.1))).length + msgs.length ∧
      (∀ w ∈ allWrites rs, w.chunk.length ≤ w.blockLength) ∧
      ((∀ r ∈ rs, r.err = none) →
        (∀ pre w post, allWrites rs = pre ++ w :: post → w.written = false → ∀ x ∈ post, x.chunk.length ≤ 20) ∧
        ∀ evs, notified evs = stream (allWrites rs) → NoGap none evs →
          (evs.foldl (Link.step room) {}).observed = msgs.map (·.1) ∧
            ((evs.foldl (Link.step room) {}).dropped = [] →
              (evs.foldl (Link.step room) {}).received ++ (evs.foldl (Link.step room) {}).inbox = msgs.map (·.1))) := by
  obtain ⟨rs, hrs, hlen, hle, hnil⟩ := sendAll_spec hb msgs
  refine ⟨rs, hrs, hlen, hle, fun herr => ?_⟩
  obtain ⟨hfits, hstream⟩ := hnil herr
  refine ⟨fun pre w post heq hw => (heq ▸ hfits).after_failure hw, ?_⟩
  intro evs hevs hgap
  have hmsgs : ∀ m ∈ msgs.map (·.1), m.length ≤ maxMessageSize := by
    intro m hm
    obtain ⟨x, hx, rfl⟩ := List.mem_map.1 hm
    exact hsize x hx
  have hstart : Framed (msgs.map (·.1)) {} (notified evs ++ []) :=
    ⟨⟨msgs.map (·.1), rfl, by rw [List.append_nil, hevs, hstream]; rfl⟩, fun _ => rfl⟩
  obtain ⟨hend, hempty⟩ := @Framed.run room _ _ evs [] hmsgs hstart (fun _ => rfl) hgap fun _ => rfl
  obtain ⟨rest, hsplit, hrest⟩ := hend.rest
  have hnone : rest = [] := by
    rw [hempty rfl] at hrest
    cases rest with
    | nil => rfl
    | cons m rest => exact absurd hrest (by simp [frames_cons, frame])
  rw [hnone, List.append_nil] at hsplit
  refine ⟨hsplit.symm, fun hd => ?_⟩
  rw [hend.inbox hd, hsplit]

/-- A first write that fails, an empty message behind it, and a split length prefix. -/
theorem framing_roundTrip_split :
    let evs := [.notify 0 [0], .notify 700 [2, 104], .receive, .notify 900 [105, 0], .notify 901 [0]]
    (evs.foldl (Link.step 5) {}).observed = [[104, 105], []] := by
  obtain ⟨rs, hrs, _, _, hnil⟩ := framing_roundTrip 5 512 (by decide)
    [([104, 105], fun i => if i = 0 then .failed else .written), ([], fun _ => .written)] (by simp [maxMessageSize])
  have hsent : some rs = some
      [{ err := none, blockLength := 20, writes := [⟨512, [0, 2, 104, 105], false⟩, ⟨20, [0, 2, 104, 105], true⟩] },
        { err := none, blockLength := 20, writes := [⟨20, [0, 0], true⟩] }] := by
    rw [← hrs]
    decide
  rw [Option.some.inj hsent] at hnil
  exact ((hnil (by decide)).2 _ (by decide) (by simp [NoGap, rxTimeout])).1

end ElectricEel.Bluez.Framing
