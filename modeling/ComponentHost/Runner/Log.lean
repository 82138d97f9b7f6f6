/-
# `ComponentHost.Runner.Log` — the activity log

The log is a list of messages with levels, the oldest first.  It only grows, until
it is cleared; clearing leaves a notice.  The time of day is put in front of a
message when it is shown.
-/
import ComponentHost.Text.Blank

namespace ComponentHost

/-- How a message is meant. -/
inductive LogLevel where
  | info | success | warning | error
  deriving DecidableEq, Repr

def LogLevel.name : LogLevel → String
  | info => "info"
  | success => "success"
  | warning => "warning"
  | error => "error"

def LogLevel.all : List LogLevel := [.info, .success, .warning, .error]

/-- A message with its level. -/
structure LogEntry where
  level : LogLevel
  message : String
  deriving DecidableEq, Repr

/-- The entry as it is shown, with the time of day in front. -/
def LogEntry.display (time : String) (e : LogEntry) : String :=
  "[" ++ time ++ "] " ++ e.message

def LogEntry.info (message : String) : LogEntry := ⟨.info, message⟩

def LogEntry.success (message : String) : LogEntry := ⟨.success, message⟩

def LogEntry.warning (message : String) : LogEntry := ⟨.warning, message⟩

def LogEntry.error (message : String) : LogEntry := ⟨.error, message⟩

abbrev Log : Type := List LogEntry

namespace Log

/-- The notice that clearing leaves. -/
def cleared : String := "Output cleared"

def clear : Log := [.info cleared]

def mentions (log : Log) (needle : String) : Bool :=
  log.any fun e => Text.contains needle.toList e.message.toList

end Log

end ComponentHost
