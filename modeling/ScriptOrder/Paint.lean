import ScriptOrder.Lines

/-!
# Painted text

A style is a list of terminal codes. Where colours are on, a styled text is
put between the style and the reset, and a reset inside it takes up the style
again; where they are off it stays as it is.
-/

set_option autoImplicit false

namespace ScriptOrder.Paint

structure Style where
  codes : Text
deriving DecidableEq, Repr

def Style.opening (s : Style) : Text := '\x1b' :: '[' :: s.codes ++ ['m']

def reset : Text := ['\x1b', '[', '0', 'm']

def takeUp (opening : Text) : Text → Text
  | [] => []
  | '\x1b' :: '[' :: '0' :: 'm' :: rest => reset ++ opening ++ takeUp opening rest
  | c :: rest => c :: takeUp opening rest

/-- No style at all writes no codes. -/
def paint (colored : Bool) (style : Option Style) (s : Text) : Text :=
  match style with
  | some style => if colored then style.opening ++ takeUp style.opening s ++ reset else s
  | none => s

def alert : Style := ⟨"1;33".toList⟩
def strongAlert : Style := ⟨"1;93".toList⟩
def success : Style := ⟨"32".toList⟩
def caution : Style := ⟨"33".toList⟩
def pointer : Style := ⟨"94".toList⟩
def named : Style := ⟨"96".toList⟩
def bright : Style := ⟨"97".toList⟩
def faint : Style := ⟨"2".toList⟩

def number (n : Nat) : Text :=
  let ds := Nat.toDigits 10 n
  List.replicate (4 - ds.length) ' ' ++ ds

def padded (width : Nat) (s : Text) : Text := s ++ List.replicate (width - s.length) ' '

end ScriptOrder.Paint
