import ScriptOrder.Layout
import ScriptOrder.Proofs.Outline
import ScriptOrder.Proofs.Lookup
import ScriptOrder.Proofs.StableSort

/-!
# Passages

A passage is what a block holds, without its place in the script: its lines
with their readings, and its kind. The layout of blocks depends on their
passages only. A separator counts as an empty line that reads blank.
-/

set_option autoImplicit false

namespace ScriptOrder
open Marks

structure Passage where
  rows : List Mark
  kind : Kind
deriving DecidableEq, Repr

namespace Passage

def ofBlock (s : Script) (b : Block) : Passage := ⟨Layout.rows s b, b.kind⟩

def separator : Mark := ([], .blank)

def apart (p q : Passage) : Bool :=
  p.kind != q.kind || Layout.isTall p.rows || Layout.isTall q.rows

def gap : Option Passage → Passage → List Mark
  | none, _ => []
  | some p, q => if apart p q then [separator] else []

def stack : Option Passage → List Passage → List Mark
  | _, [] => []
  | previous, p :: ps => gap previous p ++ p.rows ++ stack (some p) ps

def sort (ps : List Passage) : List Passage := StableSort.sorted (fun p => p.kind.rank) ps

theorem gap_blank (previous : Option Passage) (p : Passage) : Blanks (gap previous p) := by
  cases previous with
  | none => simp [gap]
  | some q =>
    rw [gap]
    split <;> simp [separator]

theorem stack_congr {p q : Passage} (hk : p.kind = q.kind)
    (ht : Layout.isTall p.rows = Layout.isTall q.rows) (ps : List Passage) :
    stack (some p) ps = stack (some q) ps := by
  cases ps with
  | nil => rfl
  | cons r ps => simp [stack, gap, apart, hk, ht]

theorem filled_stack (previous : Option Passage) (ps : List Passage) :
    filled (stack previous ps) = ps.flatMap fun p => filled p.rows := by
  induction ps generalizing previous with
  | nil => rfl
  | cons p ps ih => simp [stack, ih, filled_blanks (gap_blank previous p)]

theorem mem_stack {previous : Option Passage} {ps : List Passage} {m : Mark}
    (h : m ∈ stack previous ps) : (∃ p ∈ ps, m ∈ p.rows) ∨ m = separator := by
  induction ps generalizing previous with
  | nil => simp [stack] at h
  | cons p ps ih =>
    simp only [stack, List.mem_append] at h
    rcases h with (hgap | hrow) | hrest
    · right
      cases previous with
      | none => simp [gap] at hgap
      | some q =>
        rw [gap] at hgap
        split at hgap <;> simp_all
    · exact Or.inl ⟨p, by simp, hrow⟩
    · rcases ih hrest with ⟨q, hq, hm⟩ | hm
      · exact Or.inl ⟨q, by simp [hq], hm⟩
      · exact Or.inr hm

end Passage

namespace Layout
open Passage

def mark (r : Row) : Mark := r.getD separator

theorem rowLine_mark (r : Row) : rowLine r = (mark r).1 := by cases r <;> rfl

theorem isCommentRow_mark (r : Row) : isCommentRow r = (mark r).2.isComment := by cases r <;> rfl

theorem isBlankRow_mark (r : Row) : isBlankRow r = (mark r).2.isBlank := by cases r <;> rfl

theorem gap_marks (s : Script) (previous : Option Block) (b : Block) :
    (gap s previous b).map mark = Passage.gap (previous.map (ofBlock s)) (ofBlock s b) := by
  cases previous with
  | none => rfl
  | some a =>
    have happ : apart (ofBlock s a) (ofBlock s b) = needsGap s a b := rfl
    by_cases h : needsGap s a b = true <;> simp [gap, Passage.gap, happ, h, mark]

theorem map_mark_some (ms : List Mark) : (ms.map some).map mark = ms := by
  simp [mark, Function.comp_def]

theorem blockRows_marks (s : Script) (previous : Option Block) (bs : List Block) :
    (blockRows s previous bs).map mark =
      stack (previous.map (ofBlock s)) (bs.map (ofBlock s)) := by
  induction bs generalizing previous with
  | nil => rfl
  | cons b bs ih =>
    rw [blockRows, List.map_append, List.map_append, gap_marks, map_mark_some, ih]
    rfl

end Layout

namespace Marks
open Layout

/-- Drops the blank lines between the comments that open the marks and what
follows them. -/
def glue (ms : List Mark) : List Mark :=
  if (ms.takeWhile fun m => m.2.isComment).isEmpty then ms
  else (ms.takeWhile fun m => m.2.isComment) ++
    (ms.dropWhile fun m => m.2.isComment).dropWhile fun m => m.2.isBlank

theorem glue_marks (rs : List Row) : (Layout.glue rs).map mark = glue (rs.map mark) := by
  have hc : isCommentRow = (fun m => m.2.isComment) ∘ mark := funext isCommentRow_mark
  have hb : isBlankRow = (fun m => m.2.isBlank) ∘ mark := funext isBlankRow_mark
  rw [glue, List.takeWhile_map, List.dropWhile_map, List.dropWhile_map, ← hc, ← hb, Layout.glue]
  split <;> simp_all

end Marks

end ScriptOrder
