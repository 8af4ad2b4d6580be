import ScriptOrder.Reading

/-!
# The opening comment

A script may open with a run of comment lines, blank lines before it apart.
That run documents the whole script: it keeps its place and the blocks begin
after it.
-/

set_option autoImplicit false

namespace ScriptOrder.Opening

def runEnd (rs : List Reading) (i : Nat) : Nat :=
  i + ((rs.drop i).takeWhile Reading.isComment).length

/-- The run that opens the script, if it opens with one, and where the blocks
begin. -/
def find (rs : List Reading) : Option (Nat × Nat) × Nat :=
  let first := (rs.takeWhile Reading.isBlank).length
  match rs[first]? with
  | none => (none, rs.length)
  | some r =>
    if r.isComment then (some (first, runEnd rs first), runEnd rs first) else (none, 0)

end ScriptOrder.Opening
