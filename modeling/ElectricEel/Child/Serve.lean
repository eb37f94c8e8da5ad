/-
  ElectricEel.Child.Serve — the request loop over one connection (serve.go `serveConn`).

  A script is the order in which the child's writers take `writeMu`: the request loop
  reads a line and answers it, the heartbeat loop and the presence goroutines write
  frames of their own, and between requests those goroutines change the session. The loop
  says hello first, skips blank lines, stops reading at a line over the scanner's limit and
  at the end of the connection shuts the session down.

  Proved: one response per line that is not blank, in the order of the lines, under the
  request's id, or under "" where no request could be decoded (`responseIds_serveConn`).
-/
import ElectricEel.Child.Dispatch

namespace ElectricEel.Child

open Wire

inductive Turn where
  | line (l : Line) (e : ServeEnv)
  | event (e : SessionEvent)
  | heartbeat (unix : Int)
  /-- A goroutine beside the loop changes the session. -/
  | own (o : Own)
  deriving DecidableEq, Repr

def Sess.shutdown (s : Sess) : Sess := s.stopPresence.teardown

/-- `for scanner.Scan() { … }` and the shutdown after it. -/
def serveLoop (w : World) (s : Sess) : List Turn → Sess × World × List Frame
  | [] => (s.shutdown, w, [])
  | .line .tooLong _ :: _ => (s.shutdown, w, [])
  | .line l e :: rest =>
    let out := serveLine w s l e
    let done := serveLoop out.2.1 out.1 rest
    (done.1, done.2.1, out.2.2.toList.map Frame.response ++ done.2.2)
  | .event e :: rest =>
    let done := serveLoop w s rest
    (done.1, done.2.1, .event e :: done.2.2)
  | .heartbeat unix :: rest =>
    let done := serveLoop w s rest
    (done.1, done.2.1, .heartbeat unix :: done.2.2)
  | .own o :: rest => serveLoop w (s.own w.disk o) rest

def serveConn (w : World) (s : Sess) (script : List Turn) : Sess × World × List Frame :=
  let done := serveLoop w s script
  (done.1, done.2.1, .hello protocolVersion :: done.2.2)

/-! ## One response per line -/

/-- The lines the scanner delivers. -/
def linesRead : List Turn → List Line
  | [] => []
  | .line .tooLong _ :: _ => []
  | .line l _ :: rest => l :: linesRead rest
  | .event _ :: rest | .heartbeat _ :: rest | .own _ :: rest => linesRead rest

/-- The id a line is answered under. -/
def answerId : Line → Option String
  | .blank | .tooLong => none
  | .malformed _ => some ""
  | .request req => some req.id

def responseId : Frame → Option String
  | .response r => some r.id
  | _ => none

theorem serveLine_id (w : World) (s : Sess) (l : Line) (e : ServeEnv) :
    (serveLine w s l e).2.2.map Response.id = answerId l := by
  cases l with
  | blank => rfl
  | tooLong => rfl
  | malformed err => rfl
  | request req =>
    unfold serveLine
    dsimp only
    split
    · rfl
    · exact congrArg some (dispatch_id w s req e)

theorem filterMap_responseId (r : Option Response) :
    (r.toList.map Frame.response).filterMap responseId = (r.map Response.id).toList := by
  cases r <;> rfl

theorem responseIds_serveLoop (w : World) (s : Sess) (script : List Turn) :
    (serveLoop w s script).2.2.filterMap responseId = (linesRead script).filterMap answerId := by
  induction script generalizing w s with
  | nil => rfl
  | cons t rest ih =>
    cases t with
    | event | heartbeat | own => exact ih _ _
    | line l e =>
      have hstep : l ≠ .tooLong → (serveLoop w s (.line l e :: rest)).2.2.filterMap responseId =
          (linesRead (.line l e :: rest)).filterMap answerId := by
        intro hl
        rw [serveLoop, linesRead]
        · rw [List.filterMap_append, filterMap_responseId, serveLine_id, ih]
          cases h : answerId l <;> simp [h]
        · exact fun h => hl h
        · exact fun h => hl h
      cases l with
      | tooLong => rfl
      | _ => exact hstep (by simp)

theorem responseIds_serveConn (w : World) (s : Sess) (script : List Turn) :
    (serveConn w s script).2.2.filterMap responseId = (linesRead script).filterMap answerId :=
  responseIds_serveLoop w s script

end ElectricEel.Child
