import PocketShell.Session.Basic

/-!
# Replies

What comes of running a line: the session as it is left behind, the lines that were written, a
status or an error, and the time to wait after the lines are shown. A status of zero is success.
-/

namespace PocketShell

/-- **Replies.** -/
structure Reply where
  session : Session
  lines : List Line := []
  /-- The status, or the error that ended the run. -/
  result : Except Error Int := .ok 0
  /-- The seconds to wait once the lines are shown. -/
  pause : Float := 0

namespace Reply

/-- Writes lines and ends with a status; the session stays as it is. -/
def say (session : Session) (lines : List Line) (status : Int := 0) : Reply where
  session := session
  lines := lines
  result := .ok status

/-- Ends with an error; the session stays as it is. -/
def fail (session : Session) (error : Error) : Reply where
  session := session
  result := .error error

/-- **One reply after the other.** The lines of both, with the outcome of the second. -/
def andThen (first second : Reply) : Reply where
  session := second.session
  lines := first.lines ++ second.lines
  result := second.result
  pause := first.pause + second.pause

/-- The status that a user is told: an error counts as the status one. -/
def status (reply : Reply) : Int :=
  match reply.result with
  | .ok status => status
  | .error _ => 1

/-- The lines that a user sees: what was written, and the words for an error behind it. -/
def shown (reply : Reply) : List Line :=
  match reply.result with
  | .ok _ => reply.lines
  | .error error => reply.lines ++ [.err error.message]

end Reply

end PocketShell
