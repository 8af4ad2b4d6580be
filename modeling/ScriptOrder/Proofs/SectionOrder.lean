import Mathlib.Data.List.Basic
import ScriptOrder.DefaultRules
import ScriptOrder.Proofs.Rereading

/-!
# The order of the sections

The declarations of an arranged script are the declarations of the script,
sorted by the rank of their kinds. Each section holds one declaration, and the
kind it is sorted by is the kind of that declaration.
-/

set_option autoImplicit false

namespace ScriptOrder
open Marks

abbrev Declared := Line × Kind

namespace Declared

def rank (d : Declared) : Nat := d.2.rank

def ofMark? (rules : Rulebook) (m : Mark) : Option Declared :=
  match m.2 with
  | .declaration kind => some (m.1, rules.settle kind m.1)
  | _ => none

def sort (ds : List Declared) : List Declared := StableSort.sorted rank ds

theorem filter_kind (k : Kind) (ds : List Declared) :
    (ds.filter fun d => d.2 = k) = StableSort.atKey rank k.rank ds := by
  apply List.filter_congr
  intro d _
  apply decide_eq_decide.mpr
  constructor
  · intro h
    rw [rank, h]
  · exact Kind.rank_injective

end Declared

namespace Marks

variable {rules : Rulebook}

def declarations (rules : Rulebook) (ms : List Mark) : List Declared :=
  ms.filterMap (Declared.ofMark? rules)

@[simp] theorem declarations_append (ms ns : List Mark) :
    declarations rules (ms ++ ns) = declarations rules ms ++ declarations rules ns :=
  List.filterMap_append

theorem declarations_cons (line : Line) (kind : Kind) (ms : List Mark) :
    declarations rules ((line, .declaration kind) :: ms) =
      (line, rules.settle kind line) :: declarations rules ms := rfl

theorem declarations_undeclared {ms : List Mark} (h : Undeclared ms) :
    declarations rules ms = [] := by
  apply List.filterMap_eq_nil_iff.mpr
  intro m hm
  rw [Declared.ofMark?]
  split
  · exact absurd ‹_› (h m hm _)
  · rfl

theorem declarations_flatMap {α : Type} (l : List α) (f : α → List Mark) :
    declarations rules (l.flatMap f) = l.flatMap fun a => declarations rules (f a) :=
  List.filterMap_flatMap

theorem declarations_filled (ms : List Mark) : declarations rules (filled ms) = declarations rules ms := by
  rw [declarations, declarations, filled, List.filterMap_filter]
  apply List.filterMap_congr
  intro m _
  by_cases hm : m.2 = .blank
  · simp [hm, Declared.ofMark?]
  · simp [hm]

end Marks

namespace Section

variable {rules : Rulebook}

def declared (rules : Rulebook) (s : Section) : Declared := (s.line, s.settled rules)

theorem declarations_rows (s : Section) : declarations rules s.rows = [s.declared rules] := by
  rw [rows, declarations_append, declarations_undeclared s.lead_undeclared, head, declarations_cons,
    declarations_undeclared s.body_undeclared]
  rfl

end Section

namespace Outline

variable {rules : Rulebook}

theorem declarations_passages (o : Outline) : ∀ p ∈ o.passages rules,
    ∀ d ∈ declarations rules p.rows, d.rank = p.kind.rank := by
  apply forall_passages
  · intro s _ d hd
    rw [Section.passage, Section.declarations_rows, List.mem_singleton] at hd
    rw [hd]
    rfl
  · intro d hd
    rw [declarations_undeclared o.tail_undeclared] at hd
    simp at hd

theorem declarations_outline (o : Outline) : declarations rules o.marks =
    (o.passages rules).flatMap fun p => declarations rules p.rows := by
  rw [← declarations_filled, filled_marks rules o, declarations_flatMap]
  simp only [declarations_filled]

theorem declarations_marks (o : Outline) :
    declarations rules o.marks = o.sections.map (Section.declared rules) := by
  have htail : (tailPassages o.tail).flatMap (fun p => declarations rules p.rows) = [] := by
    rw [tailPassages]
    split
    · rfl
    · simp [declarations_undeclared o.tail_undeclared]
  rw [declarations_outline, passages, List.flatMap_append, htail, List.append_nil]
  simp [List.flatMap_map, Section.passage, Section.declarations_rows, ← List.map_eq_flatMap]

end Outline

namespace Sheet

variable {rules : Rulebook}

theorem declarations_sheet (sh : Sheet) :
    declarations rules sh.marks = declarations rules sh.outline.marks := by
  rw [marks, declarations_append, declarations_append,
    declarations_undeclared sh.before_blank.notes.undeclared,
    declarations_undeclared sh.opening_comments.notes.undeclared]
  rfl

theorem declarations_arranged (sh : Sheet) :
    declarations rules (sh.arranged rules) = Declared.sort (declarations rules sh.marks) := by
  have hopening : declarations rules sh.opening = [] :=
    declarations_undeclared sh.opening_comments.notes.undeclared
  calc declarations rules (sh.arranged rules)
      = declarations rules (Passage.stack none (Passage.sort (sh.outline.passages rules))) := by
        rw [arranged, ← declarations_filled, filled_glue, declarations_filled,
          declarations_append, hopening, List.nil_append]
    _ = (Passage.sort (sh.outline.passages rules)).flatMap fun p => declarations rules p.rows := by
        rw [← declarations_filled, Passage.filled_stack, declarations_flatMap]
        simp only [declarations_filled]
    _ = Declared.sort ((sh.outline.passages rules).flatMap fun p => declarations rules p.rows) :=
        StableSort.sorted_flatMap _ _ _ sh.outline.declarations_passages
    _ = Declared.sort (declarations rules sh.marks) := by
        rw [declarations_sheet, Outline.declarations_outline]

end Sheet

namespace Arrange

variable {rules : Rulebook} {t : Text}

def declarations (rules : Rulebook) (t : Text) : List Declared :=
  Marks.declarations rules (Script.ofText rules t).marks

theorem declarations_arrange (h : Terminated t) :
    declarations rules (arrange rules t).text = Declared.sort (declarations rules t) := by
  obtain ⟨sh, hsh⟩ := Sheet.exists_sheet (Script.ofText rules t).marks
  rw [declarations, marks_arranged h sh hsh.symm, Sheet.declarations_arranged, hsh]
  rfl

/-- If every string of a script ends, the declarations of the arranged script
stand in the order of their kinds, and those of one kind as they stood. -/
theorem declarations_in_section_order (h : Terminated t) :
    declarations rules (arrange rules t).text = Declared.sort (declarations rules t) ∧
    (declarations rules (arrange rules t).text).Perm (declarations rules t) ∧
    (declarations rules (arrange rules t).text).Pairwise (fun a b => a.2.rank ≤ b.2.rank) ∧
    ∀ k : Kind, (declarations rules (arrange rules t).text).filter (fun d => d.2 = k) =
      (declarations rules t).filter fun d => d.2 = k := by
  have hsort : declarations rules (arrange rules t).text = Declared.sort (declarations rules t) :=
    declarations_arrange h
  refine ⟨hsort, ?_, ?_, ?_⟩
  · rw [hsort]
    exact StableSort.sorted_perm _ _
  · rw [hsort]
    exact StableSort.sorted_pairwise _ _
  · intro k
    rw [hsort, Declared.filter_kind, Declared.filter_kind]
    exact StableSort.atKey_sorted _ _ _

def mixedScript : Text := "func b():\n\tpass\nvar a = \"\"\"\nvar c\n\"\"\"\nfunc a():\n\tpass\n".toList

theorem mixedScript_declarations : declarations .default mixedScript =
    [("func b():".toList, .publicFunc), ("var a = \"\"\"".toList, .publicVar),
      ("func a():".toList, .publicFunc)] := by decide

theorem mixedScript_in_section_order : Terminated mixedScript ∧
    declarations .default (arrange .default mixedScript).text =
      [("var a = \"\"\"".toList, .publicVar), ("func b():".toList, .publicFunc),
        ("func a():".toList, .publicFunc)] := by
  have hterm : Terminated mixedScript := by
    rw [Terminated]
    decide
  constructor
  · exact hterm
  · rw [(declarations_in_section_order hterm).1, mixedScript_declarations]
    simp [Declared.sort, StableSort.sorted, StableSort.byKey, Declared.rank, Kind.rank, List.mergeSort,
      List.MergeSort.Internal.splitInTwo]

end Arrange

end ScriptOrder
