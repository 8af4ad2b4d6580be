import Mathlib.Data.List.Basic
import ScriptOrder.Proofs.Enclosures
import ScriptOrder.Proofs.PlainLines
import ScriptOrder.Proofs.Sheet

/-!
# Conservation of lines

Arranging a script keeps every line that is not read as blank, as often as it
occurs. All other lines of the new script hold nothing but white space.
-/

set_option autoImplicit false

namespace ScriptOrder
open Marks

namespace Reading

theorem blank_line_of_mark {rules : Rulebook} {e : Enclosure} {ls : List Line} :
    ∀ m ∈ ls.zip (ofLinesIn rules e ls), m.2 = .blank → isBlankLine m.1 = true := by
  induction ls generalizing e with
  | nil => simp [ofLinesIn]
  | cons l ls ih =>
    intro m hm hb
    rw [ofLinesIn, List.zip_cons_cons] at hm
    rcases List.mem_cons.mp hm with rfl | hm
    · exact (blank_of_inside hb).2
    · exact ih m hm hb

end Reading

namespace Outline

theorem filled_marks (rules : Rulebook) (o : Outline) :
    filled o.marks = (o.passages rules).flatMap fun p => filled p.rows := by
  have hsections (sections : List Section) : filled (sections.flatMap Section.marks) =
      (sections.map (Section.passage rules)).flatMap fun p => filled p.rows := by
    induction sections with
    | nil => rfl
    | cons s ss ih =>
      simp only [List.flatMap_cons, List.map_cons, filled_append, ih, Section.marks,
        filled_blanks s.gap_blank, List.nil_append]
      rfl
  have htail : (tailPassages o.tail).flatMap (fun p => filled p.rows) = filled o.tail := by
    rw [tailPassages]
    split <;> simp_all [filled]
  rw [marks, passages, List.flatMap_append, htail, filled_append, hsections, filled_append,
    filled_append, filled_blanks o.gap_blank, filled_blanks o.after_blank, List.nil_append,
    List.append_nil]

theorem rows_subset (rules : Rulebook) (o : Outline) : ∀ p ∈ o.passages rules, p.rows ⊆ o.marks := by
  apply forall_passages
  · intro s hs m hm
    have hrow : m ∈ s.marks := List.mem_append_right s.gap hm
    exact List.mem_append_left _ (List.mem_flatMap.mpr ⟨s, hs, hrow⟩)
  · intro m hm
    exact List.mem_append_right _ (List.mem_append_right _ (List.mem_append_left _ hm))

end Outline

namespace Sheet

theorem filled_arranged (rules : Rulebook) (sh : Sheet) :
    (filled (sh.arranged rules)).Perm (filled sh.marks) := by
  have hsort : (Passage.sort (sh.outline.passages rules)).Perm (sh.outline.passages rules) :=
    StableSort.sorted_perm _ _
  rw [arranged, filled_glue, filled_append, Passage.filled_stack, marks, filled_append,
    filled_append, filled_blanks sh.before_blank, List.nil_append,
    Outline.filled_marks rules sh.outline]
  exact (hsort.flatMap_right _).append_left _

theorem mem_arranged {rules : Rulebook} {sh : Sheet} {m : Mark} (h : m ∈ sh.arranged rules) :
    m ∈ sh.marks ∨ m = Passage.separator := by
  have hm := (glue_sublist _).mem h
  rw [List.mem_append] at hm
  rcases hm with hm | hm
  · exact Or.inl (List.mem_append_right _ (List.mem_append_left _ hm))
  · rcases Passage.mem_stack hm with ⟨p, hp, hrow⟩ | hsep
    · have hmarks := sh.outline.rows_subset rules p ((StableSort.mem_sorted _).mp hp) hrow
      exact Or.inl (List.mem_append_right _ (List.mem_append_right _ hmarks))
    · exact Or.inr hsep

section Plain

variable {s : Script} (hplain : ∀ l ∈ s.lines, Lines.Plain l) (sh : Sheet) (h : s.marks = sh.marks)
include hplain h

theorem plain_arranged : ∀ l ∈ (sh.arranged s.rules).map Prod.fst, Lines.Plain l := by
  intro l hl
  obtain ⟨m, hm, rfl⟩ := List.mem_map.mp hl
  rcases mem_arranged hm with hm | rfl
  · exact hplain m.1 (List.of_mem_zip (h ▸ hm)).1
  · simp [Passage.separator, Lines.Plain]

variable (hs : s.Even)
include hs

theorem lines_text : Lines.lines (Arrange.text s) = (sh.arranged s.rules).map Prod.fst := by
  rw [text_sheet hs sh h]
  exact Lines.lines_unlines _ fun l hl => (plain_arranged hplain sh h l hl).1

theorem lines_unify_text :
    Lines.lines (Lines.unify (Arrange.text s)) = (sh.arranged s.rules).map Prod.fst := by
  rw [text_sheet hs sh h]
  exact Lines.lines_unify_unlines _ (plain_arranged hplain sh h)

end Plain

end Sheet

namespace Arrange

def keptLines (rules : Rulebook) (t : Text) : List Line :=
  (filled (Script.ofText rules t).marks).map Prod.fst

def isInk (l : Line) : Bool := !isBlankLine l

variable (rules : Rulebook) (t : Text)

theorem kept_ink : (keptLines rules t).filter isInk = (Lines.lines (Lines.unify t)).filter isInk := by
  have hblank : ∀ m ∈ (Script.ofText rules t).marks, isInk m.1 = true → m.2 ≠ .blank := by
    intro m hm hink hb
    have hline := Reading.blank_line_of_mark m hm hb
    simp [isInk, hline] at hink
  have hlines := Script.marks_lines (Script.ofLines_even rules (Lines.lines (Lines.unify t)))
  calc (keptLines rules t).filter isInk
      = ((Script.ofText rules t).marks.filter fun m => isInk m.1 && !m.2.isBlank).map Prod.fst := by
        rw [keptLines, filled, List.filter_map, List.filter_filter]
        rfl
    _ = ((Script.ofText rules t).marks.filter fun m => isInk m.1).map Prod.fst := by
        congr 1
        apply List.filter_congr
        intro m hm
        by_cases hink : isInk m.1 = true
        · simp [hink, hblank m hm hink]
        · simp [hink]
    _ = ((Script.ofText rules t).marks.map Prod.fst).filter isInk := by
        rw [List.filter_map]
        rfl
    _ = (Lines.lines (Lines.unify t)).filter isInk := by
        rw [Script.ofText, hlines]
        rfl

theorem blank_line_of_arranged {rules : Rulebook} {t : Text} {sh : Sheet}
    (h : (Script.ofText rules t).marks = sh.marks) :
    ∀ m ∈ sh.arranged rules, m.2 = .blank → isBlankLine m.1 = true := by
  intro m hm hb
  rcases Sheet.mem_arranged hm with hm | rfl
  · exact Reading.blank_line_of_mark m (h ▸ hm) hb
  · rfl

theorem lines_conserved : ∃ spaces : List Line, (∀ l ∈ spaces, isBlankLine l = true) ∧
    (Lines.lines (arrange rules t).text).Perm (keptLines rules t ++ spaces) := by
  obtain ⟨sh, hsh⟩ := Sheet.exists_sheet (Script.ofText rules t).marks
  let blanks := (sh.arranged rules).filter fun m => !!m.2.isBlank
  refine ⟨blanks.map Prod.fst, ?_, ?_⟩
  · intro l hl
    obtain ⟨m, hm, rfl⟩ := List.mem_map.mp hl
    rw [List.mem_filter] at hm
    exact blank_line_of_arranged hsh.symm m hm.1 (by simpa using hm.2)
  · have hlines : Lines.lines (arrange rules t).text = (sh.arranged rules).map Prod.fst :=
      Sheet.lines_text (Lines.lines_plain t) sh hsh.symm (Script.ofLines_even rules _)
    have hsplit : (filled (sh.arranged rules) ++ blanks).Perm (sh.arranged rules) :=
      List.filter_append_perm _ _
    have hkept : (filled (sh.arranged rules)).Perm (filled (Script.ofText rules t).marks) :=
      hsh ▸ Sheet.filled_arranged rules sh
    rw [hlines, keptLines, ← List.map_append]
    exact (hsplit.symm.trans (hkept.append_right blanks)).map Prod.fst

/-- Both halves of conservation: every filled line stays, and what comes and
goes is white space. -/
theorem conserves_lines :
    (∃ spaces : List Line, (∀ l ∈ spaces, isBlankLine l = true) ∧
      (Lines.lines (arrange rules t).text).Perm (keptLines rules t ++ spaces)) ∧
    ((Lines.lines (arrange rules t).text).filter isInk).Perm
      ((Lines.lines (Lines.unify t)).filter isInk) := by
  constructor
  · exact lines_conserved rules t
  · obtain ⟨spaces, hspaces, hperm⟩ := lines_conserved rules t
    have hnone : spaces.filter isInk = [] := by
      apply List.filter_eq_nil_iff.mpr
      intro l hl
      simp [isInk, hspaces l hl]
    have hink := hperm.filter isInk
    rwa [List.filter_append, hnone, List.append_nil, kept_ink] at hink

end Arrange

end ScriptOrder
