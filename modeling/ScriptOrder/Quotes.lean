/-!
# Quotes left open by a line

A line is read from left to right. Outside a string a hash sign ends the
reading, a triple quote opens a string that may run over several lines, and
a single quote of either sort opens a string that ends with its line at the
latest. `leavesOpen` says whether a triple-quoted string is open at the end.
-/

set_option autoImplicit false

namespace ScriptOrder.Quotes

def triple : List Char := ['"', '"', '"']

inductive Mode where
  | plain
  | tripled
  | quoted (q : Char)
deriving DecidableEq, Repr

/-- Inside a triple-quoted string nothing but the triple quote is special;
inside the other strings a backslash hides the character after it. -/
def openIn : Mode → List Char → Bool
  | .plain, [] => false
  | .tripled, [] => true
  | .quoted _, [] => false
  | .plain, '"' :: '"' :: '"' :: rest => openIn .tripled rest
  | .tripled, '"' :: '"' :: '"' :: rest => openIn .plain rest
  | .quoted _, ['\\'] => false
  | .quoted q, '\\' :: _ :: rest => openIn (.quoted q) rest
  | .plain, c :: rest =>
    if c = '#' then false
    else if c = '"' ∨ c = '\'' then openIn (.quoted c) rest
    else openIn .plain rest
  | .tripled, _ :: rest => openIn .tripled rest
  | .quoted q, c :: rest => if c = q then openIn .plain rest else openIn (.quoted q) rest

def leavesOpen (isOpen : Bool) (line : List Char) : Bool :=
  openIn (if isOpen then .tripled else .plain) line

end ScriptOrder.Quotes
