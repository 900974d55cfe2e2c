import StructuralEdit.Session.Edit

/-! # Panels

A panel shows the current buffer of a session, a status line, the warnings of the
last command and a log of what was run.
-/
namespace StructuralEdit

inductive PanelEvent
  | buffer (b : Buffer)
  | status (line : Text)
  | warnings (messages : List Text)
  | log (line : Text)

namespace Panel

/-- Of what a session reports, an error is shown at once. -/
def onNotice : Notice → Option PanelEvent
  | .warning _ => none
  | .error e => some (.status ("Edit: ".toList ++ e.message))

/-- Show the current buffer, if there is one. -/
def refresh (s : Session) : List PanelEvent :=
  match s.current with
  | some h => [.buffer (s.buffer h)]
  | none => []

def statusLine (s : Session) : Text :=
  match s.current with
  | none => "no current buffer".toList
  | some h =>
    let b := s.buffer h
    (if b.unsaved then ['\''] else []) ++ (if b.name.isEmpty then "<unnamed>".toList else b.name)
      ++ " #".toList ++ Text.ofInt b.dot.q0 ++ ",#".toList ++ Text.ofInt b.dot.q1

/-- An entry of a log line. -/
def logField (key : String) (value : Text) : Text := ' ' :: key.toList ++ '=' :: value

def absent : Text := "None".toList

def spanText (r : Span) : Text :=
  '(' :: Text.ofInt r.q0 ++ ", ".toList ++ Text.ofInt r.q1 ++ [')']

/-- The current buffer as the log has it: one without text does not count. -/
def loggedBuffer (s : Session) : Option Buffer :=
  (s.current.map s.buffer).filter (0 < ·.size)

def stateText (s : Session) : Text :=
  let b := loggedBuffer s
  logField "seq" (Text.ofInt s.seq)
    ++ logField "buffers" (Text.ofNat s.workspace.listed.length)
    ++ logField "buffer" ((b.map (Text.quoted ·.name)).getD absent)
    ++ logField "dot" ((b.map (spanText ·.dot)).getD absent)

def logCommand (s : Session) (command : Text) : PanelEvent :=
  .log ("command ->".toList ++ stateText s ++ logField "text" (Text.quoted command))

def logResult (s : Session) (failure : Option EditError) : PanelEvent :=
  .log ("result <-".toList ++ stateText s
    ++ (failure.map fun e => logField "error" (Text.quoted e.message)).getD [])

/-- What a command leads to. -/
structure Submission where
  outcome : Except Fault (Option EditError)
  events : List PanelEvent
  session : Session

/-- The events of what a session reported since an earlier state of it. -/
def noticed (before after : Session) : List PanelEvent :=
  (after.notices.drop before.notices.length).filterMap onNotice

/-- Run a command in the current buffer and show what it did, unless a fault escapes. -/
def submit (s : Session) (command : Text) : Submission :=
  match Run.edit s.current command s with
  | .error f s' => ⟨.error f, logCommand s command :: noticed s s', s'⟩
  | .ok failure s' =>
    let (messages, shown) := s'.drain
    let status := if failure.isNone then [PanelEvent.status (statusLine shown)] else []
    ⟨.ok failure,
      logCommand s command :: noticed s s'
        ++ (if messages.isEmpty then [] else [.warnings messages])
        ++ status ++ refresh shown ++ [logResult shown failure], shown⟩

end Panel

end StructuralEdit
