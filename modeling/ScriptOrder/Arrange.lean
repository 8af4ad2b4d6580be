import ScriptOrder.Layout
import ScriptOrder.Opening
import ScriptOrder.Scan

/-!
# Arranging a script

The lines of a script are read, the opening comment is set aside, the rest is
cut into blocks, and the blocks are laid out in the order of their sections.
-/

set_option autoImplicit false

namespace ScriptOrder

structure Arranged where
  text : Text
  remarks : List Remark
deriving DecidableEq, Repr

namespace Arrange

def opening (s : Script) : Option (Nat × Nat) := (Opening.find s.readings).1

def start (s : Script) : Nat := (Opening.find s.readings).2

def blocks (s : Script) : List Block := Scan.blocks s (start s)

def text (s : Script) : Text := Layout.render s (opening s) (Block.sort (blocks s))

def remarks (s : Script) : List Remark :=
  Remark.sortByLine (Reading.remarks s.lines ++ Scan.remarks s (start s))

end Arrange

def arrange (rules : Rulebook) (t : Text) : Arranged :=
  let s := Script.ofText rules t
  ⟨Arrange.text s, Arrange.remarks s⟩

end ScriptOrder
