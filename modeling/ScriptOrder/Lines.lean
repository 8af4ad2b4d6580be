/-!
# Lines of a text

A text is a list of characters, and its line breaks are LF, CR LF and CR.
`unify` writes every break as LF, `lines` cuts at LF, and a final break
opens no further line. `restyle` gives an edited text the breaks of the text
it came from.
-/

set_option autoImplicit false

namespace ScriptOrder

abbrev Text := List Char

/-- A line does not hold the break that ends it. -/
abbrev Line := List Char

namespace Lines

def joinPairs : Text → Text
  | [] => []
  | '\r' :: '\n' :: rest => '\n' :: joinPairs rest
  | c :: rest => c :: joinPairs rest

def unify (t : Text) : Text :=
  (joinPairs t).map fun c => if c = '\r' then '\n' else c

def lines : Text → List Line
  | [] => []
  | c :: rest =>
    if c = '\n' then [] :: lines rest
    else match lines rest with
      | [] => [[c]]
      | line :: others => (c :: line) :: others

/-- The pieces of a text between its line breaks; there is always one. -/
def pieces : Text → List Line
  | [] => [[]]
  | c :: rest =>
    if c = '\n' then [] :: pieces rest
    else match pieces rest with
      | [] => [[c]]
      | piece :: others => (c :: piece) :: others

def unlines (ls : List Line) : Text := ls.flatMap fun l => l ++ ['\n']

def joined : List Line → Text
  | [] => []
  | [l] => l
  | l :: ls => l ++ '\n' :: joined ls

def hasPair : Text → Bool
  | [] => false
  | '\r' :: '\n' :: _ => true
  | _ :: rest => hasPair rest

/-- A text that had CR LF anywhere gets it back at every break. -/
def restyle (before edited : Text) : Text :=
  if hasPair before then
    edited.flatMap fun c => if c = '\n' then ['\r', '\n'] else [c]
  else edited

def endsInBreak (t : Text) : Bool := t.getLast? = some '\n'

def dropFinalBreak (t : Text) : Text := if endsInBreak t then t.dropLast else t

/-- Two texts with one settled form differ at most in the style of their
breaks and in one final break. -/
def settled (t : Text) : Text := dropFinalBreak (unify t)

end Lines

end ScriptOrder
