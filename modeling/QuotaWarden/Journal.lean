import QuotaWarden.Text.Surrogate

/-!
# The journal

What an operator tells about its work, in order: lines of a log, threads that start and are waited
for, pauses, and waits for the stop signal.

* `LogLine` is a line of the log, `Note` an entry of the journal.
-/

namespace QuotaWarden

inductive LogLevel where
  | info
  | warning
  | error
deriving DecidableEq, Repr

def LogLevel.name : LogLevel → String
  | .info => "INFO"
  | .warning => "WARNING"
  | .error => "ERROR"

structure LogLine where
  level : LogLevel
  text : String
deriving DecidableEq, Repr

/-- The line as it is shown: the level, and the first line of the text. -/
def LogLine.shown (l : LogLine) : String :=
  l.level.name ++ " " ++ String.ofList (l.text.toList.takeWhile (· ≠ '\n'))

/-- A value in a log line; a missing one is shown by empty brackets. -/
def showGiven (write : α → String) : Option α → String
  | some x => write x
  | none => "[]"

/-- An entry of the journal: a line, or something done to a thread or to the clock. -/
inductive Note (τ : Type) where
  | log (l : LogLine)
  /-- A thread started. -/
  | thread (name : String)
  /-- The end of a thread was waited for. -/
  | join (name : String)
  | sleep (t : τ)
  /-- The stop signal was waited for, so long at most. -/
  | wait (t : τ)
deriving Repr

end QuotaWarden
