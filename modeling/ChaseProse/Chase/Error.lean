import ChaseProse.Files.Fault
/-! Errors of reading, checking and writing a trace. Each aborts the stage that meets it. -/
namespace ChaseProse.Chase
open ChaseProse.Files

/-- What is wrong with a fact text. -/
inductive FactProblem where
  | missingPredicate
  | unterminated
  deriving DecidableEq, Repr

def FactProblem.message : FactProblem → String
  | .missingPredicate => "missing predicate name"
  | .unterminated => "unterminated argument list"

inductive ChaseError where
  | io (path : String) (fault : Fault)
  | malformedDocument (path reason : String)
  | malformedFact (text : String) (problem : FactProblem)
  | malformedPattern (text : String)
  | arityMismatch (index : Nat) (name : String) (factArity patternArity : Nat)
  deriving DecidableEq, Repr

namespace ChaseError

def code : ChaseError → String
  | .io .. => "CHASE_IO_FAILED"
  | .malformedDocument .. => "CHASE_MALFORMED_DOCUMENT"
  | .malformedFact .. => "CHASE_MALFORMED_FACT"
  | .malformedPattern .. => "CHASE_MALFORMED_PATTERN"
  | .arityMismatch .. => "CHASE_ARITY_MISMATCH"

def message : ChaseError → String
  | .io path fault => "I/O failure on '" ++ path ++ "': " ++ fault.message
  | .malformedDocument path reason => "Malformed document '" ++ path ++ "': " ++ reason
  | .malformedFact text problem => "Malformed fact '" ++ text ++ "': " ++ problem.message
  | .malformedPattern text => "Malformed pattern '" ++ text ++ "'"
  | .arityMismatch index name fa pa =>
    "Step " ++ toString index ++ " ('" ++ name ++ "'): fact has " ++ toString fa ++
      " arguments but pattern has " ++ toString pa

end ChaseError

end ChaseProse.Chase
