/-!
# Remarks

What the organizer reports about a script. Lines are counted from zero and
shown counted from one.
-/

set_option autoImplicit false

namespace ScriptOrder

inductive Cause where
  | unterminated
  /-- Text that is no comment stands before the first declaration, at `head`. -/
  | stray (head : Nat)
  /-- Text at the end, or the whole text, has no declaration after it. -/
  | dangling
deriving DecidableEq, Repr

structure Remark where
  line : Nat
  cause : Cause
deriving DecidableEq, Repr

def Cause.message : Cause → String
  | unterminated => "unterminated \"\"\" string runs to the end of the script"
  | stray head =>
    "top-level text before a declaration kept with line " ++ toString (head + 1)
  | dangling => "comment text with no declaration after it"

namespace Remark

def message (r : Remark) : String := r.cause.message

def display (r : Remark) : String := "line " ++ toString (r.line + 1) ++ ": " ++ r.message

def sortByLine (rs : List Remark) : List Remark :=
  rs.mergeSort fun a b => decide (a.line ≤ b.line)

end Remark

end ScriptOrder
