import ScriptOrder.Reading

/-!
# Docstrings as comments

A triple-quoted string that begins its line, and whose end the text holds, is
a docstring. `convert` puts comment lines in its place: the text between the
quotes without an empty first and last line, then what follows the closing
quotes. Every other line stays as it is.
-/

set_option autoImplicit false

namespace ScriptOrder.Docstring
open CharClass

def commentLine (text : List Char) : Line :=
  match trimEnd text with
  | [] => ['#']
  | c :: cs => '#' :: ' ' :: c :: cs

def splitLast? : List Char → Option (List Char × List Char)
  | [] => none
  | c :: rest =>
    match splitLast? rest with
    | some (before, after) => some (c :: before, after)
    | none => (rest? Quotes.triple (c :: rest)).map fun after => ([], after)

def dropBlankLast (ls : List Line) : List Line :=
  match ls.getLast? with
  | some l => if 1 < ls.length && isBlankLine l then ls.dropLast else ls
  | none => ls

def dropBlankFirst : List Line → List Line
  | l :: m :: ls => if isBlankLine l then m :: ls else l :: m :: ls
  | ls => ls

def comments (unit : List Line) : List Line :=
  let body := (Lines.joined unit).drop Quotes.triple.length
  let (inner, tail) := (splitLast? body).getD (body, [])
  let tail := trim tail
  (dropBlankFirst (dropBlankLast (Lines.pieces inner))).map commentLine ++
    (if tail.isEmpty then [] else [commentLine tail])

inductive State where
  | outside
  | inLiteral
  /-- The lines of a docstring read so far, the last one first. -/
  | inUnit (lines : List Line)
deriving Repr

/-- Lines of a docstring that never ends are kept. -/
def convertIn : State → List Line → List Line
  | .outside, [] => []
  | .inLiteral, [] => []
  | .inUnit unit, [] => unit.reverse
  | .inLiteral, l :: ls =>
    l :: convertIn (if Quotes.leavesOpen true l then .inLiteral else .outside) ls
  | .inUnit unit, l :: ls =>
    if Quotes.leavesOpen true l then convertIn (.inUnit (l :: unit)) ls
    else comments (l :: unit).reverse ++ convertIn .outside ls
  | .outside, l :: ls =>
    if startsString l then
      if Quotes.leavesOpen false l then convertIn (.inUnit [l]) ls
      else comments [l] ++ convertIn .outside ls
    else l :: convertIn (if Quotes.leavesOpen false l then .inLiteral else .outside) ls

def convertLines (ls : List Line) : List Line := convertIn .outside ls

def convert (script : Text) : Text :=
  let script := Lines.unify script
  match Lines.joined (convertLines (Lines.lines script)) with
  | [] => []
  | text => if Lines.endsInBreak script then text ++ ['\n'] else text

end ScriptOrder.Docstring
