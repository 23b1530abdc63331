import ChaseProse.Log
import ChaseProse.Json.Number
import ChaseProse.Json.Shape
import ChaseProse.Decimal.Format
/-! Settings shared by the stages. Every field has a default, so an empty object is a valid
configuration; a configuration is checked before any stage runs. -/
namespace ChaseProse
open ChaseProse.Json

/-- The placeholder that `nullPhrase` must hold. -/
def labelSlot : String := "\x7blabel\x7d"

structure Config where
  /-- Name prefix of temporary and join facts. -/
  tempPrefix : String := "vatom"
  /-- Provenance entry that stands for a negated atom without a witness. -/
  absenceMarker : String := "null"
  /-- Introduces an existential null the first time a sentence mentions it. -/
  nullPhrase : String := "there exists some unknown entity labelled as " ++ labelSlot ++ " that"
  /-- Absolute tolerance when matching aggregate contributions. -/
  tolerance : Float := 0.0
  logLevel : String := "info"
  deriving Inhabited

inductive ConfigError where
  | read (path reason : String)
  | parse (reason : String)
  | invalid (field reason : String)
  deriving DecidableEq, Repr

namespace ConfigError

def code : ConfigError → String
  | .read .. => "CONFIG_READ_FAILED"
  | .parse .. => "CONFIG_PARSE_FAILED"
  | .invalid .. => "CONFIG_INVALID"

def message : ConfigError → String
  | .read path reason => "failed to read config '" ++ path ++ "': " ++ reason
  | .parse reason => "invalid config JSON: " ++ reason
  | .invalid field reason => "invalid config value for '" ++ field ++ "': " ++ reason

end ConfigError

namespace Config

/-- The configuration fields in their order, which is also the order of the list form. -/
def fieldNames : List String :=
  ["temp_prefix", "absence_marker", "null_phrase", "aggregate_tolerance", "log_level"]

/-- A configuration from the values of its fields; a field set to a value of the wrong kind,
null included, is refused. -/
def ofFields (get : String → Option Value) : Option Config := do
  let d : Config := {}
  let text (k : String) (dflt : String) : Option String :=
    match get k with
    | some v => v.str?
    | none => some dflt
  return {
    tempPrefix := ← text "temp_prefix" d.tempPrefix
    absenceMarker := ← text "absence_marker" d.absenceMarker
    nullPhrase := ← text "null_phrase" d.nullPhrase
    tolerance := ← match get "aggregate_tolerance" with
      | some v => v.float?
      | none => some d.tolerance
    logLevel := ← text "log_level" d.logLevel }

/-- What a configuration reader decodes: a record with the configuration fields. -/
def shape : Shape := .record (fieldNames.map fun k => (k, .value))

/-- Reads a configuration document: an object (other keys ignored, a field given twice
refused) or a list of at most five field values in field order. -/
def ofValue? : Value → Option Config
  | .obj fs =>
    if fieldNames.any (fun k => (fs.filter (·.1 == k)).length > 1) then none
    else ofFields fun k => (fs.find? (·.1 == k)).map (·.2)
  | .arr xs =>
    if xs.length > 5 then none
    else ofFields fun k => (fieldNames.idxOf? k).bind fun i => xs[i]?
  | _ => none

def severity? (c : Config) : Option Severity := Severity.parse? c.logLevel

/-- Checks the fields in order: the prefix and the marker are not blank, the phrase holds the
label slot, the tolerance is finite and not negative, the level is known. -/
def validate (c : Config) : Except ConfigError Severity := do
  if (Text.trimList c.tempPrefix.toList).isEmpty then
    throw (.invalid "temp_prefix" "must not be empty")
  if (Text.trimList c.absenceMarker.toList).isEmpty then
    throw (.invalid "absence_marker" "must not be empty")
  if !Text.containsText c.nullPhrase labelSlot then
    throw (.invalid "null_phrase" ("must contain '" ++ labelSlot ++ "'"))
  if c.tolerance.isNaN || c.tolerance.isInf || c.tolerance < 0 then
    throw (.invalid "aggregate_tolerance"
      ("must be a finite value >= 0, got " ++ Decimal.messageText c.tolerance))
  match c.severity? with
  | some s => return s
  | none => throw (.invalid "log_level" ("unknown level '" ++ c.logLevel ++ "'"))

/-- A temporary or join fact: its name, without leading blanks, starts with the prefix. -/
def isPlaceholder (c : Config) (name : String) : Bool :=
  (Text.trimStart name).startsWith c.tempPrefix

def isAbsenceMarker (c : Config) (entry : String) : Bool := Text.trim entry == c.absenceMarker

/-- The phrase with every label slot filled with `label`. -/
def nullPhraseFor (c : Config) (label : String) : String := c.nullPhrase.replace labelSlot label

end Config

end ChaseProse
