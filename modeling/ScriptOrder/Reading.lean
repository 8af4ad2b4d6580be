import ScriptOrder.Quotes
import ScriptOrder.Remark
import ScriptOrder.Rulebook

/-!
# Readings of lines

A reading says what a line is. Outside a triple-quoted string it depends on
the line alone. A string that a line leaves open covers the lines up to the
one that closes it: they are comments if the string began its line, and code
otherwise.
-/

set_option autoImplicit false

namespace ScriptOrder
open CharClass

inductive Reading where
  | blank
  | comment
  | declaration (kind : Kind)
  /-- An indented line, or one that begins with a closing bracket. -/
  | body
  | code
deriving DecidableEq, Repr

def startsString (line : Line) : Bool := startsWith Quotes.triple line

def startsComment (line : Line) : Bool := line.head? = some '#' || startsString line

def startsBody : Line → Bool
  | [] => false
  | c :: _ => isBlank c || c = '}' || c = ')' || c = ']'

def isBlankLine (line : Line) : Bool := line.all isBlank

namespace Reading

def isComment (r : Reading) : Bool := r = comment

def isBlank (r : Reading) : Bool := r = blank

def isSolid (r : Reading) : Bool := !r.isComment && !r.isBlank

def ofLine (rules : Rulebook) (line : Line) : Reading :=
  if isBlankLine line then blank
  else if startsComment line then comment
  else match rules.kind? line with
    | some kind => declaration kind
    | none => if startsBody line then body else code

/-- The string that is open before a line, told by how it began. -/
inductive Enclosure where
  | outside
  | inComment
  | inLiteral
deriving DecidableEq, Repr

namespace Enclosure

def isOpen (e : Enclosure) : Bool := e != outside

def after (e : Enclosure) (line : Line) : Enclosure :=
  if Quotes.leavesOpen e.isOpen line then
    match e with
    | outside => if startsString line then inComment else inLiteral
    | e => e
  else outside

def afterAll : Enclosure → List Line → Enclosure
  | e, [] => e
  | e, l :: ls => (e.after l).afterAll ls

end Enclosure

def inside (rules : Rulebook) (line : Line) : Enclosure → Reading
  | .outside => ofLine rules line
  | .inComment => comment
  | .inLiteral => code

def ofLinesIn (rules : Rulebook) : Enclosure → List Line → List Reading
  | _, [] => []
  | e, l :: ls => inside rules l e :: ofLinesIn rules (e.after l) ls

def ofLines (rules : Rulebook) (ls : List Line) : List Reading := ofLinesIn rules .outside ls

/-- The line that opened the string still open at the end. `opener` is that
line for a string already open, and `n` the number of the next line. -/
def openerIn (e : Enclosure) (opener n : Nat) : List Line → Option Nat
  | [] => if e.isOpen then some opener else none
  | l :: ls => openerIn (e.after l) (if e.isOpen then opener else n) (n + 1) ls

def remarks (ls : List Line) : List Remark :=
  match openerIn .outside 0 0 ls with
  | some line => [⟨line, .unterminated⟩]
  | none => []

theorem ofLinesIn_length (rules : Rulebook) (e : Enclosure) (ls : List Line) :
    (ofLinesIn rules e ls).length = ls.length := by
  induction ls generalizing e with
  | nil => rfl
  | cons l ls ih => simp [ofLinesIn, ih]

theorem ofLinesIn_append (rules : Rulebook) (e : Enclosure) (ls ms : List Line) :
    ofLinesIn rules e (ls ++ ms) = ofLinesIn rules e ls ++ ofLinesIn rules (e.afterAll ls) ms := by
  induction ls generalizing e with
  | nil => rfl
  | cons l ls ih => simp [ofLinesIn, Enclosure.afterAll, ih]

theorem ofLines_length (rules : Rulebook) (ls : List Line) :
    (ofLines rules ls).length = ls.length :=
  ofLinesIn_length rules .outside ls

end Reading

end ScriptOrder
