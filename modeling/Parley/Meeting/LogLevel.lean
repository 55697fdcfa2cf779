import Parley.Text.Blank

/-!
# `Parley/Meeting/LogLevel.lean` — how much the client reports about itself

A level is chosen by name, in any mix of cases and with blanks around it; three levels have a second
name. Each level lets a severity and everything graver through.
-/

set_option autoImplicit false

namespace Parley

/-- Levels of reporting, from everything to nothing. -/
inductive LogLevel where
  | verbose
  | debug
  | info
  | warning
  | error
  | off
  deriving DecidableEq

namespace LogLevel

/-- The level that holds where none is chosen. -/
def standard : LogLevel := .error

/-- The text that a level is chosen by, after trimming and with ASCII capitals lowered. -/
def normalize (text : String) : String :=
  String.ofList ((Text.trim text.toList).map Char.toLower)

/-- The level that a normalized name stands for. -/
def ofName? (name : String) : Option LogLevel :=
  match name with
  | "verbose" | "trace" => some .verbose
  | "debug" => some .debug
  | "info" => some .info
  | "warning" | "warn" => some .warning
  | "error" => some .error
  | "off" | "none" => some .off
  | _ => none

def name : LogLevel → String
  | .verbose => "verbose"
  | .debug => "debug"
  | .info => "info"
  | .warning => "warning"
  | .error => "error"
  | .off => "off"

/-- The least grave severity that a level lets through. -/
def filter : LogLevel → String
  | .verbose => "TRACE"
  | .debug => "DEBUG"
  | .info => "INFO"
  | .warning => "WARN"
  | .error => "ERROR"
  | .off => "OFF"

/-- The name of a level with a capital, as descriptions of a session show it. -/
def label : LogLevel → String
  | .verbose => "Verbose"
  | .debug => "Debug"
  | .info => "Info"
  | .warning => "Warning"
  | .error => "Error"
  | .off => "Off"

/-- The name of a level stands for that level. -/
theorem ofName?_name (level : LogLevel) : ofName? level.name = some level := by
  cases level <;> rfl

end LogLevel

end Parley
