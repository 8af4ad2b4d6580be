import ScriptOrder.CharClass

/-!
# Patterns

Regular patterns with tests for the ends of the line and for word edges.
What a pattern admits at a place depends on the characters on both sides, so
the empty match looks at both neighbours and the derivative at the character
before the one consumed. `Pattern.occursIn` asks for a match that begins at
any place of a line.
-/

set_option autoImplicit false

namespace ScriptOrder
open CharClass

/-- One member of a character set; the flag is false for the complement. -/
inductive CharTest where
  | range (lo hi : Char)
  | space (member : Bool)
  | word (member : Bool)
  | decimal (member : Bool)
deriving DecidableEq, Repr

def CharTest.accepts : CharTest → Char → Bool
  | range lo hi, c => lo ≤ c && c ≤ hi
  | space member, c => isBlank c == member
  | word member, c => isWord c == member
  | decimal member, c => isDecimal c == member

inductive Pattern where
  | never
  | empty
  | lineStart
  | lineEnd
  /-- A place where a word begins or ends, or with `false` any other place. -/
  | wordEdge (present : Bool)
  | oneOf (tests : List CharTest)
  | noneOf (tests : List CharTest)
  | seq (p q : Pattern)
  | either (p q : Pattern)
  | many (p : Pattern)
deriving DecidableEq, Repr

namespace Pattern

def optional (p : Pattern) : Pattern := either empty p

def oneOrMore (p : Pattern) : Pattern := seq p (many p)

def times (p : Pattern) : Nat → Pattern
  | 0 => empty
  | n + 1 => seq p (times p n)

def char (c : Char) : Pattern := oneOf [.range c c]

def word : List Char → Pattern
  | [] => empty
  | c :: cs => seq (char c) (word cs)

def all : List Pattern → Pattern
  | [] => empty
  | [p] => p
  | p :: ps => seq p (all ps)

def any : List Pattern → Pattern
  | [] => never
  | [p] => p
  | p :: ps => either p (any ps)

def wordAt : Option Char → Bool
  | none => false
  | some c => isWord c

/-- Whether the pattern matches the empty text between two neighbours. -/
def passes (before after : Option Char) : Pattern → Bool
  | never => false
  | empty => true
  | lineStart => before.isNone
  | lineEnd => after.isNone
  | wordEdge present => (wordAt before != wordAt after) == present
  | oneOf _ => false
  | noneOf _ => false
  | seq p q => p.passes before after && q.passes before after
  | either p q => p.passes before after || q.passes before after
  | many _ => true

def join : Pattern → Pattern → Pattern
  | never, _ => never
  | empty, q => q
  | p, q => seq p q

def choices : Pattern → List Pattern
  | never => []
  | either p q => choices p ++ choices q
  | p => [p]

/-- Adds the choices of the first pattern that the second does not have, so
that derivatives do not grow by repeating themselves. -/
def union (p q : Pattern) : Pattern :=
  match p, q with
  | never, q => q
  | p, never => p
  | p, q => any (choices q ++ (choices p).filter fun r => !(choices q).contains r)

/-- What is left to match after `c`, read after the character `before`. -/
def derive (before : Option Char) (c : Char) : Pattern → Pattern
  | oneOf tests => if tests.any (·.accepts c) then empty else never
  | noneOf tests => if tests.any (·.accepts c) then never else empty
  | seq p q =>
    let left := join (p.derive before c) q
    if p.passes before (some c) then union left (q.derive before c) else left
  | either p q => union (p.derive before c) (q.derive before c)
  | many p => join (p.derive before c) (many p)
  | _ => never

def matchesFrom : Pattern → Option Char → List Char → Bool
  | never, _, _ => false
  | p, before, [] => p.passes before none
  | p, before, c :: rest =>
    p.passes before (some c) || matchesFrom (p.derive before c) (some c) rest

def occursFrom (p : Pattern) (before : Option Char) : List Char → Bool
  | [] => p.matchesFrom before []
  | c :: rest => p.matchesFrom before (c :: rest) || p.occursFrom (some c) rest

def occursIn (p : Pattern) (line : List Char) : Bool := p.occursFrom none line

end Pattern

end ScriptOrder
