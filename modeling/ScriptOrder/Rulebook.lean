import ScriptOrder.Kind
import ScriptOrder.Lines
import ScriptOrder.Pattern

/-!
# Rulebooks

A rulebook says which pattern marks which kind of declaration, first match
first, and which functions the engine calls on its own. The patterns file
every function whose name begins with an underscore as a callback; `settle`
files such a function by its name.
-/

set_option autoImplicit false

namespace ScriptOrder
open CharClass

abbrev Names := List (List Char)

structure Rulebook where
  rules : List (Kind × Pattern)
  /-- The functions that the engine calls; order and repetition do not count. -/
  callbacks : Names

/-- The name of the function that a line declares: after an optional
`static`, the keyword and white space, the longest run of name characters. -/
def declaredName? (line : Line) : Option (List Char) :=
  let line := trimStart line
  let line := match rest? "static".toList line with
    | some rest => trimStart rest
    | none => line
  match rest? "func".toList line with
  | some (c :: rest) =>
    if isBlank c then
      match (trimStart rest).takeWhile isName with
      | [] => none
      | name => some name
    else none
  | _ => none

namespace Rulebook

def allowing (r : Rulebook) (names : Names) : Rulebook := { r with callbacks := names }

def sortedCallbacks (r : Rulebook) : Names :=
  (r.callbacks.mergeSort fun a b => decide (List.le a b)).eraseDups

def allows (r : Rulebook) (name : List Char) : Bool := r.callbacks.contains name

def kind? (r : Rulebook) (line : Line) : Option Kind :=
  (r.rules.find? fun rule => rule.2.occursIn line).map Prod.fst

def settle (r : Rulebook) (k : Kind) (line : Line) : Kind :=
  match k with
  | .callback =>
    match declaredName? line with
    | none => .privateFunc
    | some name =>
      if r.allows name then .callback
      else if name.head? = some '_' then .privateFunc
      else .publicFunc
  | k => k

end Rulebook

end ScriptOrder
