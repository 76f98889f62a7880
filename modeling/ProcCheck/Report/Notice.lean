import ProcCheck.Text

/-!
# Notices

What a command tells its user is a list of notices, each on one of two channels.
-/

namespace ProcCheck

/-- Where a notice goes: the ordinary output or the one for errors. -/
inductive Channel where
  | log
  | error
  deriving DecidableEq, Repr

/-- A text for the user. -/
structure Notice where
  channel : Channel
  text : Text
  deriving DecidableEq, Repr

namespace Notice

/-- A notice on the ordinary output. -/
def log (text : Text) : Notice := ⟨.log, text⟩

/-- A notice on the output for errors. -/
def error (text : Text) : Notice := ⟨.error, text⟩

/-- What a record keeps of notices: their texts in order, whatever their channel. -/
def recorded (notices : List Notice) : List Text := notices.map (·.text)

end Notice

end ProcCheck
