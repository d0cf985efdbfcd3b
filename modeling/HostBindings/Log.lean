/-
  Lines of the log.

  Key definitions include:
    * `LogLine`
    * `LogLine.render`
-/

------------------------------------------------------------
-- Lines
------------------------------------------------------------

namespace HostBindings

/- How important a line is. -/
inductive LogLevel where
| info
| warn
| error
deriving DecidableEq, Repr

/- A line of the log. -/
structure LogLine where
  level : LogLevel
  text : String
deriving DecidableEq, Repr

namespace LogLevel

/- The word in front of a line. -/
def name : LogLevel → String
| .info => "INFO"
| .warn => "WARN"
| .error => "ERROR"

end LogLevel

namespace LogLine

/- A line for information. -/
def info (text : String) : LogLine :=
  ⟨.info, text⟩

/- A warning. -/
def warn (text : String) : LogLine :=
  ⟨.warn, text⟩

/- A report of a failure. -/
def error (text : String) : LogLine :=
  ⟨.error, text⟩

/- A line as it is written. -/
def render (line : LogLine) : String :=
  line.level.name ++ " " ++ line.text

end LogLine

end HostBindings
