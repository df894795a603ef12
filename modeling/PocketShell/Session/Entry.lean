import PocketShell.Session.Dispatch

/-!
# Entering lines

A line that a user enters is trimmed, run and then remembered, whether it succeeded or not. The
limit of the history is the one that the line itself has left behind. A blank line does nothing and
is not remembered.

* `Session.enter` — enters one line;
* `Session.enterAll` — enters lines one after the other, with one reply for each;
* `Session.after` — the session that replies have left behind.
-/

namespace PocketShell.Session

/-- **Entering a line.** -/
def enter (session : Session) (line : String) : Reply :=
  let line := Text.trim line
  if line.isEmpty then .say session []
  else
    let reply := session.invoke line
    -- remembered by the session that the line left behind, whose limit may be a new one
    { reply with session := reply.session.record line }

/-- **Entering lines** one after the other. -/
def enterAll (session : Session) : List String → List Reply
  | [] => []
  | line :: lines =>
    let reply := session.enter line
    reply :: reply.session.enterAll lines

/-- The session that the last of some replies has left behind. -/
def after (session : Session) (replies : List Reply) : Session :=
  replies.foldl (fun _ reply => reply.session) session

end PocketShell.Session
