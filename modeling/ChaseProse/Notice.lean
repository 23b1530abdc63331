import ChaseProse.Log
import ChaseProse.Rule.Error
/-! What the stages report while they work: a step no ground fact reaches, a rule that does not
parse, how an aggregate was resolved, and the soft failures of verbalization. Each notice is
one log line; the best-effort ones are warnings, per-step detail is trace. -/
namespace ChaseProse

/-- How the contributors of a running sum were found. -/
inductive Resolution where
  | single (entry : String)
  | pair (first second : String)
  | fallback (entries : List String)
  deriving DecidableEq, Repr

namespace Resolution

def entries : Resolution → List String
  | .single e => [e]
  | .pair a b => [a, b]
  | .fallback es => es

def isExact : Resolution → Bool
  | .fallback _ => false
  | _ => true

def kind : Resolution → String
  | .single _ => "ExactSingle"
  | .pair .. => "Pair"
  | .fallback _ => "Fallback"

def event : Resolution → String
  | .single _ => "CONTRIBUTOR_SINGLE"
  | .pair .. => "CONTRIBUTOR_PAIR"
  | .fallback _ => "CONTRIBUTOR_FALLBACK"

end Resolution

inductive Notice where
  | unreachable (index : Nat) (label name : String)
  | ruleUnparsed (index : Nat) (error : Rule.RuleError)
  | resolved (index : Nat) (name : String) (resolution : Resolution)
  | ruleSplit (index : Nat) (body conditions algebraic : String)
  | stepDeferred (index : Nat) (name : String) (conditions : Nat)
  | factUndescribed (index : Nat) (fact : String)
  | variableUnresolved (index : Nat) (names : String)
  | carriedDropped (clauses : Nat)

def Notice.toLine : Notice → LogLine
  | .unreachable i label name =>
    ⟨"STEP_UNREACHABLE", .warn, [("index", toString i), ("label", label), ("name", name)]⟩
  | .ruleUnparsed i e =>
    ⟨"RULE_UNPARSED", .warn, [("index", toString i), ("code", e.code), ("reason", e.message)]⟩
  | .resolved i name r =>
    ⟨r.event, if r.isExact then .trace else .warn, [("index", toString i), ("name", name)]⟩
  | .ruleSplit i body conditions algebraic =>
    ⟨"RULE_SPLIT", .trace, [("index", toString i), ("body", body), ("conditions", conditions),
      ("algebraic", algebraic)]⟩
  | .stepDeferred i name n =>
    ⟨"STEP_DEFERRED", .trace, [("index", toString i), ("name", name), ("conditions", toString n)]⟩
  | .factUndescribed i fact => ⟨"FACT_UNDESCRIBED", .warn, [("index", toString i), ("fact", fact)]⟩
  | .variableUnresolved i vs =>
    ⟨"VARIABLE_UNRESOLVED", .warn, [("index", toString i), ("variables", vs)]⟩
  | .carriedDropped n => ⟨"CARRIED_CONDITIONS_DROPPED", .warn, [("clauses", toString n)]⟩

end ChaseProse
