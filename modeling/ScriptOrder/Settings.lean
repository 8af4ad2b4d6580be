import ScriptOrder.DefaultRules
import ScriptOrder.Toml

/-!
# Settings

The settings file holds one table, `organizer`, written as a section, as an
inline table or with dotted keys, in one of these ways only. It may also be an
array that gives the fields by position; items after the third do not count.
-/

set_option autoImplicit false

namespace ScriptOrder
open Toml

structure Settings where
  /-- Names that replace the callbacks known by default. -/
  builtinCallbacks : Option Names
  extraCallbacks : Names
  convertMultiline : Bool
deriving DecidableEq, Repr

namespace Settings

def default : Settings := ⟨none, [], false⟩

def callbacks (s : Settings) : Names :=
  s.builtinCallbacks.getD DefaultRules.engineCallbacks ++ s.extraCallbacks

def rulebook (s : Settings) : Rulebook :=
  if s.builtinCallbacks.isNone && s.extraCallbacks.isEmpty then .default
  else Rulebook.default.allowing s.callbacks

def name? : Value → Option (List Char)
  | .string text => some text
  | _ => none

def names? : Value → Option Names
  | .array vs => vs.mapM name?
  | _ => none

def flag? : Value → Option Bool
  | .boolean b => some b
  | _ => none

def set? (s : Settings) (path : Path) (v : Value) : Option Settings :=
  if path = ["builtin_callbacks".toList] then
    (names? v).map fun names => { s with builtinCallbacks := some names }
  else if path = ["extra_callbacks".toList] then
    (names? v).map fun names => { s with extraCallbacks := names }
  else if path = ["convert_multiline".toList] then
    (flag? v).map fun b => { s with convertMultiline := b }
  else none

def setAll? : Settings → List (Path × Value) → Option Settings
  | s, [] => some s
  | s, (path, v) :: es => (s.set? path v).bind fun s => s.setAll? es

def ofEntries? (es : List (Path × Value)) : Option Settings :=
  if areApart (es.map Prod.fst) then default.setAll? es else none

def ofItems? : List Value → Option Settings
  | [] => some default
  | [a] => do
    some ⟨some (← names? a), [], false⟩
  | [a, b] => do
    some ⟨some (← names? a), ← names? b, false⟩
  | a :: b :: c :: _ => do
    some ⟨some (← names? a), ← names? b, ← flag? c⟩

def ofValue? : Value → Option Settings
  | .table es => ofEntries? es
  | .array vs => ofItems? vs
  | _ => none

def tableName : Key := "organizer".toList

def inTable? : Path × Value → Option (Path × Value)
  | (k :: path, v) => if k = tableName then some (path, v) else none
  | ([], _) => none

def keyed? : Statement → Option (Path × Value)
  | .entry path v => some (path, v)
  | _ => none

def ofStatements? : List Statement → Option Settings
  | [] => some default
  | [.entry [k] v] => if k = tableName then ofValue? v else none
  | .header [k] :: sts =>
    if k = tableName then (sts.mapM keyed?).bind ofEntries? else none
  | sts => (sts.mapM fun st => (keyed? st).bind inTable?).bind ofEntries?

def read? (text : Text) : Option Settings := (document? text).bind ofStatements?

end Settings

end ScriptOrder
