import ScriptOrder.Batch
import ScriptOrder.Reading

/-!
# Listings

A listing shows each line of a script with its number and what it is.
-/

set_option autoImplicit false

namespace ScriptOrder.Listing
open Paint

def label (rules : Rulebook) (l : Line) : Reading → Text
  | .declaration kind => (rules.settle kind l).name.toList
  | .comment => "comment".toList
  | .blank => []
  | .body => "body".toList
  | .code => "code".toList

def style : Reading → Option Style
  | .declaration _ => some named
  | .comment => some success
  | .blank => none
  | .body => none
  | .code => some caution

def labelWidth : Nat := 18

def row (rules : Rulebook) (colored : Bool) (n : Nat) (l : Line) (r : Reading) : Text :=
  number (n + 1) ++ ' ' :: paint colored (style r) (padded labelWidth (label rules l r)) ++
    ' ' :: paint colored (some faint) l ++ ['\n']

def rows (rules : Rulebook) (colored : Bool) : Nat → List (Line × Reading) → Text
  | _, [] => []
  | n, (l, r) :: ls => row rules colored n l r ++ rows rules colored (n + 1) ls

def listing (rules : Rulebook) (colored : Bool) (x : Text) : Text :=
  let ls := Lines.lines (Lines.unify x)
  rows rules colored 0 (ls.zip (Reading.ofLines rules ls))

def warnings (colored : Bool) (x : Text) : Text :=
  (Reading.remarks (Lines.lines (Lines.unify x))).flatMap fun r =>
    Batch.warnLine colored r.display.toList

end ScriptOrder.Listing
