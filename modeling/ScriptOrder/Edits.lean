import ScriptOrder.Arrange
import ScriptOrder.Batch
import ScriptOrder.Docstring

/-!
# Edits of the command

The two edits of a batch, arranging and converting, with the report of the
remarks on the arranged text: each names a line and shows it.
-/

set_option autoImplicit false

namespace ScriptOrder.Edits
open Paint

/-- The line of a text that a report shows. A CR without LF does not end it. -/
def excerpt (t : Text) (n : Nat) : Line := (Lines.lines (Lines.joinPairs t)).getD n []

def position (name : Text) (r : Remark) : Text := name ++ ':' :: Nat.toDigits 10 (r.line + 1)

def gutter (colored : Bool) (s : Text) : Text :=
  paint colored (some faint) s ++ ' ' :: paint colored (some faint) ['|']

def showRemark (colored : Bool) (name shown : Text) (r : Remark) : Text :=
  let n := number (r.line + 1)
  paint colored (some strongAlert) "warning:".toList ++
    ' ' :: paint colored (some bright) r.message.toList ++
    '\n' :: paint colored (some pointer) "-->".toList ++
    ' ' :: paint colored (some bright) (position name r) ++
    '\n' :: ' ' :: gutter colored (List.replicate n.length ' ') ++
    '\n' :: gutter colored n ++ ' ' :: excerpt shown r.line ++ ['\n', '\n']

def showRemarks (colored : Bool) (name shown : Text) (rs : List Remark) : Text :=
  rs.flatMap (showRemark colored name shown)

def prepared (converting : Bool) (x : Text) : Text :=
  if converting then Docstring.convert x else x

def arranging (rules : Rulebook) (converting pretty colored : Bool) : Edit := fun name x =>
  let a := arrange rules (prepared converting x)
  ⟨a.text, if pretty then showRemarks colored name (prepared converting x) a.remarks else []⟩

def converting : Edit := fun _ x => ⟨Docstring.convert x, []⟩

end ScriptOrder.Edits
