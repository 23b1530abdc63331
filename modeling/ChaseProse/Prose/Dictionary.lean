import ChaseProse.Chase.Fact
import ChaseProse.Json.Value
import ChaseProse.Json.Shape
/-! The predicate dictionary: a sentence template per predicate name and arity, read from
descriptors `{"predicate": "own(A,B)", "description": "A owns B", "specifics": {"terms":
[{"type": "entity"}, …]}}`. The first descriptor of a name and arity wins. -/
namespace ChaseProse.Prose
open ChaseProse.Chase ChaseProse.Json

/-- How an argument is written into a sentence: an entity in double quotes, a value bare. -/
inductive TermKind where
  | entity
  | value
  deriving DecidableEq, Repr, Inhabited

def TermKind.name : TermKind → String
  | .entity => "Entity"
  | .value => "Value"

/-- A descriptor as written. -/
structure Descriptor where
  signature : String
  description : String
  kinds : List TermKind

/-- A descriptor with its signature read: the placeholders are the signature's arguments. -/
structure Template where
  name : String
  placeholders : List String
  description : String
  kinds : List TermKind
  deriving DecidableEq, Repr

namespace Template

def arity (t : Template) : Nat := t.placeholders.length

/-- The kind at a position; entity when the descriptor leaves it out. -/
def kind (t : Template) (i : Nat) : TermKind := t.kinds[i]?.getD .entity

/-- The first position of the placeholder `p`. -/
def positionOf? (t : Template) (p : String) : Option Nat := t.placeholders.idxOf? p

end Template

inductive DictionaryError where
  | malformedSignature (index : Nat) (signature : String)
  deriving DecidableEq, Repr

def DictionaryError.code : DictionaryError → String
  | .malformedSignature .. => "VERBALIZE_MALFORMED_SIGNATURE"

def DictionaryError.message : DictionaryError → String
  | .malformedSignature i s =>
    "malformed predicate signature at descriptor " ++ toString i ++ ": '" ++ s ++ "'"

structure Dictionary where
  templates : List Template
  deriving Inhabited

namespace Dictionary

def lookup? (d : Dictionary) (name : String) (arity : Nat) : Option Template :=
  d.templates.find? fun t => t.name == name && t.arity == arity

/-- Templates from descriptors, keeping the first of each name and arity. -/
def ofDescriptors (ds : List Descriptor) : Except DictionaryError Dictionary := do
  let ts ← ds.zipIdx.mapM fun (d, i) =>
    match Fact.parse d.signature with
    | .ok f => pure (Template.mk f.predicate f.args d.description d.kinds)
    | .error _ => throw (.malformedSignature i d.signature)
  return ⟨ts.foldl (fun acc t =>
    if acc.any (fun u => u.name == t.name && u.arity == t.arity) then acc else acc ++ [t]) []⟩

/-- Whether the entry is a fact with a template. -/
def describes (d : Dictionary) (entry : String) : Bool :=
  match Fact.parse entry with
  | .ok f => (d.lookup? f.predicate f.arity).isSome
  | .error _ => false

def size (d : Dictionary) : Nat := d.templates.length

end Dictionary

/-- Reads the fields of a record: an object (a field given twice refused, others ignored) or a
list of values in field order, at most as many as there are fields. -/
def recordFields (names : List String) : Value → Option (String → Option Value)
  | .obj fs =>
    if names.any (fun k => (fs.filter (·.1 == k)).length > 1) then none
    else some fun k => (fs.find? (·.1 == k)).map (·.2)
  | .arr xs =>
    if xs.length > names.length then none
    else some fun k => (names.idxOf? k).bind fun i => xs[i]?
  | _ => none

def kindNamed? : String → Option TermKind
  | "entity" => some .entity
  | "value" => some .value
  | _ => none

/-- A kind is its name, or an object whose one field is the name with a null value. -/
def readKind? : Value → Option TermKind
  | .str s => kindNamed? s
  | .obj [(s, .null)] => kindNamed? s
  | _ => none

def readTermKind? (v : Value) : Option TermKind := do
  let get ← recordFields ["type"] v
  match get "type" with
  | some k => readKind? k
  | none => some .entity

def readKinds? (v : Value) : Option (List TermKind) := do
  let get ← recordFields ["terms"] v
  match get "terms" with
  | some (.arr ts) => ts.mapM readTermKind?
  | some _ => none
  | none => some []

/-- Reads a descriptor; the signature and the description are required. -/
def readDescriptor? (v : Value) : Option Descriptor := do
  let get ← recordFields ["predicate", "description", "specifics"] v
  let signature ← (← get "predicate").str?
  let description ← (← get "description").str?
  let kinds ← match get "specifics" with
    | some s => readKinds? s
    | none => some []
  return ⟨signature, description, kinds⟩

/-- What a dictionary reader decodes: a list of descriptor records, whose specifics hold a
list of term records. -/
def descriptorsShape : Shape :=
  .list (.record [("predicate", .value), ("description", .value),
    ("specifics", .record [("terms", .list (.record [("type", .value)]))])])

def readDescriptors? : Value → Option (List Descriptor)
  | .arr xs => xs.mapM readDescriptor?
  | _ => none

end ChaseProse.Prose
