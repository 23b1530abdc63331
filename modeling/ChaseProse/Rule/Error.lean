/-! Errors of reading a rule. Offsets count bytes of the rule's UTF-8 text. -/
namespace ChaseProse.Rule

inductive RuleError where
  | unexpectedChar (offset : Nat) (text : String)
  | unexpectedToken (offset : Nat) (found expected : String)
  | unexpectedEnd (expected : String)
  | empty
  deriving DecidableEq, Repr

namespace RuleError

def code : RuleError → String
  | .unexpectedChar .. => "RULE_LEX_FAILED"
  | .unexpectedToken .. => "RULE_UNEXPECTED_TOKEN"
  | .unexpectedEnd .. => "RULE_UNEXPECTED_END"
  | .empty => "RULE_EMPTY"

def message : RuleError → String
  | .unexpectedChar offset text =>
    "unexpected character '" ++ text ++ "' at " ++ toString offset
  | .unexpectedToken offset found expected =>
    "unexpected '" ++ found ++ "' at " ++ toString offset ++ ", expected " ++ expected
  | .unexpectedEnd expected => "rule ends early, expected " ++ expected
  | .empty => "empty rule"

end RuleError

end ChaseProse.Rule
