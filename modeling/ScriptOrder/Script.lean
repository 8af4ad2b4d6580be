import ScriptOrder.Reading

/-!
# Read scripts

The lines of a script with their readings and the rules that gave them. The
readings may also come from elsewhere; nothing here asks that they fit.
-/

set_option autoImplicit false

namespace ScriptOrder

structure Script where
  lines : List Line
  readings : List Reading
  rules : Rulebook

namespace Script

def ofLines (rules : Rulebook) (ls : List Line) : Script := ⟨ls, Reading.ofLines rules ls, rules⟩

def ofText (rules : Rulebook) (t : Text) : Script := ofLines rules (Lines.lines (Lines.unify t))

def length (s : Script) : Nat := s.readings.length

def reading (s : Script) (i : Nat) : Reading := s.readings.getD i .blank

def line (s : Script) (i : Nat) : Line := s.lines.getD i []

def isBlankAt (s : Script) (i : Nat) : Bool := (s.reading i).isBlank

/-- Whether the first reading that is neither blank nor comment is a
declaration. -/
def meetsDeclaration : List Reading → Bool
  | [] => false
  | .blank :: rs => meetsDeclaration rs
  | .comment :: rs => meetsDeclaration rs
  | .declaration _ :: _ => true
  | .body :: _ => false
  | .code :: _ => false

def meetsDeclarationAt (s : Script) (i : Nat) : Bool := meetsDeclaration (s.readings.drop i)

/-- The first comment of the comments and blank lines that end before a line
and begin no earlier than `floor`; `found` if there is none. -/
def commentsBefore (s : Script) (floor found : Nat) : Nat → Nat
  | 0 => found
  | i + 1 =>
    if i < floor then found
    else match s.reading i with
      | .comment => s.commentsBefore floor i i
      | .blank => s.commentsBefore floor found i
      | _ => found

def attachedFrom (s : Script) (head floor : Nat) : Nat := s.commentsBefore floor head head

/-- Where the comments that end the script after the declaration at `head`
begin, or the end of the script. -/
def tailFrom (s : Script) (head : Nat) : Nat :=
  s.commentsBefore (head + 1) s.length s.length

def filled? (s : Script) (start stop : Nat) : Option Nat :=
  (List.range' start (stop - start)).find? fun i => !s.isBlankAt i

/-- A range's end without the blank lines before it, but never below `least`. -/
def withoutBlanks (s : Script) (least : Nat) : Nat → Nat
  | 0 => 0
  | i + 1 => if least ≤ i && s.isBlankAt i then s.withoutBlanks least i else i + 1

def slice (s : Script) (start stop : Nat) : List (Line × Reading) :=
  ((s.lines.drop start).take (stop - start)).zip ((s.readings.drop start).take (stop - start))

end Script

end ScriptOrder
