import ScriptOrder.Block
import ScriptOrder.Script

/-!
# Layout

The rows of the new script: the opening comment, then the blocks one after
another. An empty row separates two blocks of different kinds and sets a
block with a body apart from its neighbours. Blank rows between the comments
that open the new script and what follows them are dropped.
-/

set_option autoImplicit false

namespace ScriptOrder.Layout

/-- A line of the script with its reading, or an empty row between blocks. -/
abbrev Row := Option (Line × Reading)

def rows (s : Script) (b : Block) : List (Line × Reading) := s.slice b.start b.stop

/-- Whether a block has a second line that is neither comment nor blank. -/
def isTall (ls : List (Line × Reading)) : Bool := decide (2 ≤ ls.countP fun l => l.2.isSolid)

def needsGap (s : Script) (a b : Block) : Bool :=
  a.kind != b.kind || isTall (rows s a) || isTall (rows s b)

def gap (s : Script) : Option Block → Block → List Row
  | none, _ => []
  | some a, b => if needsGap s a b then [none] else []

def blockRows (s : Script) : Option Block → List Block → List Row
  | _, [] => []
  | previous, b :: bs => gap s previous b ++ (rows s b).map some ++ blockRows s (some b) bs

def isCommentRow : Row → Bool
  | some (_, r) => r.isComment
  | none => false

def isBlankRow : Row → Bool
  | some (_, r) => r.isBlank
  | none => true

/-- Drops the blank rows after the comments that open the script. -/
def glue (rs : List Row) : List Row :=
  if (rs.takeWhile isCommentRow).isEmpty then rs
  else rs.takeWhile isCommentRow ++ (rs.dropWhile isCommentRow).dropWhile isBlankRow

def openingRows (s : Script) : Option (Nat × Nat) → List Row
  | none => []
  | some (start, stop) => (s.slice start stop).map some

def rowLine : Row → Line
  | some (l, _) => l
  | none => []

def layout (s : Script) (opening : Option (Nat × Nat)) (bs : List Block) : List Row :=
  glue (openingRows s opening ++ blockRows s none bs)

def render (s : Script) (opening : Option (Nat × Nat)) (bs : List Block) : Text :=
  Lines.unlines ((layout s opening bs).map rowLine)

end ScriptOrder.Layout
