import ChaseProse.Chase.Step
import ChaseProse.Json.Number
import ChaseProse.Json.Shape
/-! Steps as JSON documents, read leniently (provenance as text or list, labels null, missing or
one integer) and written with unset fields left out. -/
namespace ChaseProse.Chase
open ChaseProse.Json

def readProvenance? : Value → Option Provenance
  | .str s => some (Provenance.parse s)
  | .arr xs => (xs.mapM Value.str?).map Provenance.mk
  | .null => some ⟨[]⟩
  | _ => none

def readRule? : Value → Option String
  | .str s => some s
  | .null => some ""
  | _ => none

def readLabelling? : Value → Option Labelling
  | .arr xs => (xs.mapM Value.str?).map Labelling.labels
  | .null => some .empty
  | v =>
    v.int64?.map fun n => if n < 0 then .excluded else .labels [toString n]

def readPattern? : Value → Option Pattern
  | .str s => (Pattern.parse s).toOption
  | _ => none

/-- The step fields in their order, which is also the order of the list form. -/
def stepFields : List String :=
  ["name", "pattern", "provenance", "rule", "number", "original_provenance"]

/-- A step from the values of its fields, missing ones taking their defaults. -/
def stepOfFields (get : String → Option Value) : Option Step := do
  let name ← (← get "name").str?
  let pattern ← readPattern? (← get "pattern")
  let provenance ← match get "provenance" with
    | some v => readProvenance? v
    | none => some ⟨[]⟩
  let rule ← match get "rule" with
    | some v => readRule? v
    | none => some ""
  let labelling ← match get "number" with
    | some v => readLabelling? v
    | none => some .empty
  let priorProvenance ← match get "original_provenance" with
    | some .null | none => some none
    | some v => (readProvenance? v).map some
  return { name, pattern, provenance, rule, labelling, priorProvenance }

/-- Reads one step: an object (other keys ignored, a field given twice refused) or a list of
two to six field values in field order. -/
def readStep? : Value → Option Step
  | .obj fs =>
    if stepFields.any (fun k => (fs.filter (·.1 == k)).length > 1) then none
    else stepOfFields fun k => (fs.find? (·.1 == k)).map (·.2)
  | .arr xs =>
    if xs.length < 2 || xs.length > 6 then none
    else stepOfFields fun k => (stepFields.idxOf? k).bind fun i => xs[i]?
  | _ => none

/-- What a trace reader decodes: a list of records with the step fields. -/
def stepsShape : Shape := .list (.record (stepFields.map fun k => (k, .value)))

/-- Reads a trace: a list of steps. -/
def readSteps? : Value → Option (List Step)
  | .arr xs => xs.mapM readStep?
  | _ => none

/-- The number of a step: `-1` when it is excluded, else its labels. -/
def Labelling.toValue : Labelling → Value
  | .excluded => .num "-1"
  | .labels ls => .ofStrings ls

/-- The number as a step writes it: left out while there are no labels. -/
def Labelling.toValue? : Labelling → Option Value
  | .labels [] => none
  | l => some l.toValue

def Step.toValue (s : Step) : Value :=
  .obj <|
    [("name", .str s.name), ("pattern", .str s.pattern.render),
      ("provenance", .str s.provenance.render), ("rule", .str s.rule)] ++
    (s.labelling.toValue?.map fun v => ("number", v)).toList ++
    (s.priorProvenance.map fun p => ("original_provenance", .str p.render)).toList

def stepsToValue (steps : List Step) : Value := .arr (steps.map Step.toValue)

end ChaseProse.Chase
