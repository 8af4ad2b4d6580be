import ScriptOrder.CharTables

/-!
# Character classes

White space, digits, the characters of a word and the characters of a
function name. Words admit marks and joiners, names admit letters and
numbers of every kind, so neither class contains the other.
-/

set_option autoImplicit false

namespace ScriptOrder.CharClass
open ScriptOrder.CharTables

def isBlank (c : Char) : Bool := covers whiteSpace c.toNat

def isDecimal (c : Char) : Bool := covers decimalNumber c.toNat

def isAlphabetic (c : Char) : Bool := covers alphabetic c.toNat

/-- The characters between which no word begins or ends. -/
def isWord (c : Char) : Bool :=
  isAlphabetic c || covers mark c.toNat || isDecimal c ||
    covers connectorPunctuation c.toNat || covers joinControl c.toNat

def isName (c : Char) : Bool :=
  isAlphabetic c || isDecimal c || covers otherNumber c.toNat || c = '_'

def trimStart (s : List Char) : List Char := s.dropWhile isBlank

def trimEnd (s : List Char) : List Char := (s.reverse.dropWhile isBlank).reverse

def trim (s : List Char) : List Char := trimEnd (trimStart s)

/-- What follows `word` at the start of a text, if the text starts with it. -/
def rest? : List Char → List Char → Option (List Char)
  | [], s => some s
  | _ :: _, [] => none
  | w :: word, c :: s => if w = c then rest? word s else none

def startsWith (word s : List Char) : Bool := (rest? word s).isSome

end ScriptOrder.CharClass
