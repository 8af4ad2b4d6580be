import ScriptOrder.Block
import ScriptOrder.Script

/-!
# The scan for blocks

The scan reads a script line by line. Each declaration heads a block, which
holds the comments that lead to it, the declaration and its body. Comments
that lead to no declaration stay in the body they stand in, and comments at
the end of the script form a block of their own.
-/

set_option autoImplicit false

namespace ScriptOrder.Scan

inductive State where
  /-- No declaration and no comment since `floor`. -/
  | searching (floor : Nat)
  /-- Comments since `first` wait for their declaration. -/
  | commenting (floor first : Nat)
  /-- Inside the block that begins at `start` and is headed by line `head`. -/
  | within (start head : Nat) (kind : Kind)
deriving DecidableEq, Repr

structure Yield where
  block : Option Block
  remark : Option Remark
deriving DecidableEq, Repr

def nothing : Yield := ⟨none, none⟩

def blockTo (s : Script) (start head stop : Nat) (kind : Kind) : Block :=
  ⟨start, s.withoutBlanks (head + 1) stop, kind⟩

/-- Begins the block of the declaration at `head`. Lines left since `floor`
that are neither blank nor attached comments go with it. -/
def begin (s : Script) (floor head : Nat) (kind : Kind) : State × Option Remark :=
  let kind := s.rules.settle kind (s.line head)
  let attached := s.attachedFrom head floor
  match s.filled? floor attached with
  | some stray => (.within stray head kind, some ⟨stray, .stray head⟩)
  | none => (.within attached head kind, none)

def leftover (s : Script) (floor : Nat) : Yield :=
  match s.filled? floor s.length with
  | some start => ⟨some ⟨start, s.withoutBlanks (start + 1) s.length, .loose⟩, some ⟨start, .dangling⟩⟩
  | none => nothing

def step (s : Script) (state : State) (i : Nat) : State × Yield :=
  match state, s.reading i with
  | .searching floor, .declaration kind =>
    let (next, remark) := begin s floor i kind
    (next, ⟨none, remark⟩)
  | .commenting floor _, .declaration kind =>
    let (next, remark) := begin s floor i kind
    (next, ⟨none, remark⟩)
  | .searching floor, .comment => (.commenting floor i, nothing)
  | .within start head kind, .declaration kind' =>
    let (next, remark) := begin s i i kind'
    (next, ⟨some (blockTo s start head i kind), remark⟩)
  | .within start head kind, .comment =>
    if s.meetsDeclarationAt i then (.commenting i i, ⟨some (blockTo s start head i kind), none⟩)
    else (.within start head kind, nothing)
  | state, _ => (state, nothing)

def atEnd (s : Script) : State → List Yield
  | .searching floor => [leftover s floor]
  | .commenting floor _ => [leftover s floor]
  | .within start head kind =>
    let stop := s.tailFrom head
    [⟨some (blockTo s start head stop kind), none⟩, leftover s stop]

def trace (s : Script) : State → List Nat → List (State × Yield)
  | _, [] => []
  | state, i :: is => step s state i :: trace s (step s state i).1 is

def after (s : Script) : State → List Nat → State
  | state, [] => state
  | state, i :: is => after s (step s state i).1 is

def linesFrom (s : Script) (start : Nat) : List Nat := List.range' start (s.length - start)

def yields (s : Script) (start : Nat) : List Yield :=
  (trace s (.searching start) (linesFrom s start)).map Prod.snd ++
    atEnd s (after s (.searching start) (linesFrom s start))

def blocks (s : Script) (start : Nat) : List Block := (yields s start).filterMap Yield.block

def remarks (s : Script) (start : Nat) : List Remark := (yields s start).filterMap Yield.remark

end ScriptOrder.Scan
