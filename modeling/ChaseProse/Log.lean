import ChaseProse.Json.Write
import ChaseProse.Text.Blank
/-! Structured log lines: an event name, a severity and text fields. A line is written as one
JSON object, the event first, then the severity, then the fields sorted by name; lines below
the threshold are dropped. -/
namespace ChaseProse

inductive Severity where
  | trace | info | warn | error | fatal
  deriving DecidableEq, Repr, Inhabited

namespace Severity

def rank : Severity → Nat
  | .trace => 0 | .info => 1 | .warn => 2 | .error => 3 | .fatal => 4

def name : Severity → String
  | .trace => "TRACE" | .info => "INFO" | .warn => "WARN" | .error => "ERROR" | .fatal => "FATAL"

/-- A level name in any case, blanks around it ignored; `warning` is `warn`. -/
def parse? (level : String) : Option Severity :=
  match String.ofList ((Text.trimList level.toList).map Char.toLower) with
  | "trace" => some .trace
  | "info" => some .info
  | "warn" | "warning" => some .warn
  | "error" => some .error
  | "fatal" => some .fatal
  | _ => none

end Severity

structure LogLine where
  event : String
  severity : Severity
  fields : List (String × String)
  deriving Inhabited

namespace LogLine

/-- Inserts a field into a list sorted by name, after fields of the same name. -/
def insertField (f : String × String) : List (String × String) → List (String × String)
  | [] => [f]
  | g :: gs => if f.1 < g.1 then f :: g :: gs else g :: insertField f gs

def sortedFields (l : LogLine) : List (String × String) := l.fields.foldl (fun acc f => insertField f acc) []

def render (l : LogLine) : String :=
  Json.Value.compact <| .obj <|
    ("event", .str l.event) :: ("severity", .str l.severity.name) ::
      l.sortedFields.map fun (k, v) => (k, .str v)

end LogLine

/-- The lines at or above the threshold, each ended by a line feed. -/
def renderLog (threshold : Severity) (lines : List LogLine) : String :=
  String.join ((lines.filter fun l => threshold.rank ≤ l.severity.rank).map fun l => l.render ++ "\n")

end ChaseProse
