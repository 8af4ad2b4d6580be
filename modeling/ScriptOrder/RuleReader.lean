import ScriptOrder.PatternReader
import ScriptOrder.Rulebook

/-!
# Written rules

A rule set from written patterns. The first pattern that cannot be read
makes the whole set invalid, and the error names its kind.
-/

set_option autoImplicit false

namespace ScriptOrder.RuleReader

inductive RuleError where
  | badPattern (kind : Kind)
deriving DecidableEq, Repr

def RuleError.message : RuleError → String
  | badPattern kind => "invalid rule for " ++ kind.name ++ ":"

def readRules : List (Kind × List Char) → Except RuleError (List (Kind × Pattern))
  | [] => .ok []
  | (kind, written) :: others =>
    match PatternReader.read? written with
    | none => .error (.badPattern kind)
    | some p => (readRules others).map ((kind, p) :: ·)

def readRulebook (written : List (Kind × List Char)) (callbacks : Names) :
    Except RuleError Rulebook :=
  (readRules written).map fun rules => ⟨rules, callbacks⟩

end ScriptOrder.RuleReader
