import Mathlib.Data.List.Basic
import ScriptOrder.Proofs.SettledSheet

/-!
# Arranging twice

One pass settles the order of the lines that are not blank. If nothing strays,
a second pass changes the text exactly if its opening comments are followed by
a blank line, and then it only drops blank lines from what stands before the
first line that is neither comment nor blank.
-/

set_option autoImplicit false

namespace ScriptOrder
open Marks

namespace Outline

theorem attached_of_remarks {gap tail : List Mark} {sections : List Section} {i : Nat}
    (h : ∀ r ∈ remarksOf gap tail i sections, ∀ head, r.cause ≠ .stray head) :
    ∀ s ∈ sections, s.Attached := by
  induction sections generalizing i with
  | nil => simp
  | cons t rest ih =>
    rw [remarksOf] at h
    intro s hs
    rcases List.mem_cons.mp hs with rfl | hs
    · by_contra hstray
      have hmem : ⟨i + s.gap.length, .stray (s.headAt i)⟩ ∈ s.remarksAt i := by
        simp [Section.remarksAt, hstray]
      exact h _ (List.mem_append_left _ hmem) _ rfl
    · exact ih (fun r hr => h r (List.mem_append_right _ hr)) s hs

theorem tail_of_remarks {gap tail : List Mark} {sections : List Section} {i : Nat}
    (h : ∀ r ∈ remarksOf gap tail i sections, r.cause ≠ .dangling) : tail = [] := by
  induction sections generalizing i with
  | nil =>
    by_contra htail
    have hmem : ⟨i + gap.length, .dangling⟩ ∈ remarksOf gap tail i [] := by
      simp [remarksOf, tailRemarks, htail]
    exact h _ hmem rfl
  | cons t rest ih => exact ih fun r hr => h r (List.mem_append_right _ hr)

end Outline

namespace Arrange

variable {rules : Rulebook} {t : Text}

theorem terminated_of_remarks (h : ∀ r ∈ (arrange rules t).remarks, r.cause ≠ .unterminated) :
    Terminated t := by
  rw [Terminated, Reading.remarks]
  split
  · rename_i line hline
    have hmem : ⟨line, .unterminated⟩ ∈ Reading.remarks (Script.ofText rules t).lines := by
      rw [Reading.remarks, show Reading.openerIn .outside 0 0 (Script.ofText rules t).lines =
        some line from hline]
      simp
    exact absurd rfl (h _ ((mem_remarks _ _).mpr (Or.inl hmem)))
  · rfl

section

variable {sh : Sheet} (hsh : (Script.ofText rules t).marks = sh.marks)
include hsh

theorem mem_remarks_sheet (r : Remark) (hr : r ∈ sh.outline.remarks sh.start) :
    r ∈ (arrange rules t).remarks := by
  have hscan : Scan.remarks (Script.ofText rules t) (start (Script.ofText rules t)) =
      sh.outline.remarks sh.start :=
    Sheet.remarks_sheet (Script.ofLines_even rules _) sh hsh
  apply (mem_remarks _ _).mpr
  right
  rwa [hscan]

theorem attached_of_no_stray (h : ∀ r ∈ (arrange rules t).remarks, ∀ head, r.cause ≠ .stray head) :
    ∀ s ∈ sh.outline.sections, s.Attached :=
  Outline.attached_of_remarks fun r hr => h r (mem_remarks_sheet hsh r hr)

theorem tail_of_no_dangling (h : ∀ r ∈ (arrange rules t).remarks, r.cause ≠ .dangling) :
    sh.outline.tail = [] :=
  Outline.tail_of_remarks fun r hr => h r (mem_remarks_sheet hsh r hr)

end

end Arrange

namespace Sheet

variable {rules : Rulebook}

theorem filled_arranged_sorted (sh : Sheet)
    (h : (declarations rules sh.marks).Pairwise fun a b => a.2.rank ≤ b.2.rank) :
    filled (sh.arranged rules) = filled sh.marks := by
  have hsections : (sh.outline.sections.map (Section.passage rules)).Pairwise
      fun p q => p.kind.rank ≤ q.kind.rank := by
    rw [declarations_sheet, Outline.declarations_marks, List.pairwise_map] at h
    exact List.pairwise_map.mpr h
  have hsort : Passage.sort (sh.outline.passages rules) = sh.outline.passages rules := by
    apply StableSort.sorted_of_pairwise
    apply List.pairwise_append.mpr
    refine ⟨hsections, ?_, ?_⟩
    · rw [Outline.tailPassages]
      split <;> simp
    · intro p _ q hq
      rw [Outline.mem_tailPassages hq]
      exact p.kind.rank_le_loose
  rw [arranged, filled_glue, filled_append, Passage.filled_stack, hsort, marks, filled_append,
    filled_append, filled_blanks sh.before_blank, List.nil_append,
    Outline.filled_marks rules sh.outline]

end Sheet

namespace Marks

/-- The second list is the first without some of the blank lines that stand
before the first line that is neither comment nor blank. -/
def DropsBlanks (ms ns : List Mark) : Prop := ∃ front kept back, ms = front ++ back ∧
  ns = kept ++ back ∧ Notes front ∧ BeginsSolid back ∧
  kept.Sublist front ∧ filled kept = filled front

theorem dropsBlanks_glue {front back : List Mark} (hn : Notes front)
    (hback : BeginsSolid back) :
    DropsBlanks (front ++ back) (glue (glue front) ++ back) :=
  ⟨front, glue (glue front), back, rfl, rfl, hn, hback,
    (glue_sublist _).trans (glue_sublist _), by rw [filled_glue, filled_glue]⟩

theorem glue_glue_front {front back : List Mark} (hback : BeginsSolid back) :
    glue (glue front) ++ back = front ++ back ↔ ¬ OpensApart (front ++ back) := by
  rw [List.append_cancel_right_eq, glue_glue_eq_self_iff, glue_eq_self_iff, opensApart_append hback]

end Marks

namespace Arrange

variable {rules : Rulebook} {t : Text}

theorem filled_twice (h : Terminated t) :
    filled (Script.ofText rules (arrange rules (arrange rules t).text).text).marks =
      filled (Script.ofText rules (arrange rules t).text).marks := by
  have hterm : Terminated (arrange rules t).text := terminated_arranged h
  have hsort : Marks.declarations rules (Script.ofText rules (arrange rules t).text).marks =
      Declared.sort (declarations rules t) := declarations_arrange h
  obtain ⟨sh, hsh⟩ := Sheet.exists_sheet (Script.ofText rules (arrange rules t).text).marks
  rw [marks_arranged hterm sh hsh.symm, ← hsh]
  apply Sheet.filled_arranged_sorted
  rw [hsh, hsort]
  exact StableSort.sorted_pairwise _ _

theorem text_of_marks (h : Terminated t) : (arrange rules t).text =
    Lines.unlines ((Script.ofText rules (arrange rules t).text).marks.map Prod.fst) := by
  obtain ⟨sh, hsh⟩ := Sheet.exists_sheet (Script.ofText rules t).marks
  rw [marks_arranged h sh hsh.symm]
  exact text_arranged hsh.symm

theorem text_eq_iff {u : Text} (ht : Terminated t) (hu : Terminated u) :
    (arrange rules u).text = (arrange rules t).text ↔
      (Script.ofText rules (arrange rules u).text).marks =
        (Script.ofText rules (arrange rules t).text).marks := by
  constructor
  · intro h
    rw [h]
  · intro h
    rw [text_of_marks hu, text_of_marks ht, h]

/-- What the second pass does to the marks of a script in which nothing strays. -/
theorem exists_twice (h : Terminated t) {sh : Sheet} (hsh : (Script.ofText rules t).marks = sh.marks)
    (hatt : ∀ s ∈ sh.outline.sections, s.Attached) :
    ∃ front back, (Script.ofText rules (arrange rules t).text).marks = front ++ back ∧
      (Script.ofText rules (arrange rules (arrange rules t).text).text).marks =
        glue (glue front) ++ back ∧
      Notes front ∧ BeginsSolid back := by
  have hterm : Terminated (arrange rules t).text := terminated_arranged h
  have honce := marks_arranged h sh hsh
  obtain ⟨again, front, back, harranged, hmarks, hagain, hnotes, hsolid⟩ :=
    sh.exists_again_sheet rules hatt
  have htwice := marks_arranged hterm again (honce.trans hmarks.symm)
  exact ⟨front, back, honce.trans harranged, htwice.trans hagain, hnotes, hsolid⟩

theorem twice_eq_once_iff (h : Terminated t) {sh : Sheet}
    (hsh : (Script.ofText rules t).marks = sh.marks) (hatt : ∀ s ∈ sh.outline.sections, s.Attached) :
    (arrange rules (arrange rules t).text).text = (arrange rules t).text ↔
      ¬ OpensApart (Script.ofText rules (arrange rules t).text).marks := by
  obtain ⟨front, back, honce, htwice, -, hsolid⟩ := exists_twice h hsh hatt
  rw [text_eq_iff h (terminated_arranged h), htwice, honce]
  exact glue_glue_front hsolid

/-- One pass settles the order of the filled lines. A second pass changes the
text of a script in which nothing strays exactly if its opening comments are
followed by a blank line, and then it drops blank lines at the front. -/
theorem second_pass_drops_blanks (h : ∀ r ∈ (arrange rules t).remarks, r.cause ≠ .unterminated) :
    let once := (arrange rules t).text
    let twice := (arrange rules once).text
    filled (Script.ofText rules twice).marks = filled (Script.ofText rules once).marks ∧
    ((∀ r ∈ (arrange rules t).remarks, ∀ head, r.cause ≠ .stray head) →
      (twice = once ↔ ¬ OpensApart (Script.ofText rules once).marks) ∧
      (OpensApart (Script.ofText rules once).marks →
        DropsBlanks (Script.ofText rules once).marks (Script.ofText rules twice).marks)) := by
  intro once twice
  have hterm : Terminated t := terminated_of_remarks h
  constructor
  · exact filled_twice hterm
  · intro hstray
    obtain ⟨sh, hsh⟩ := Sheet.exists_sheet (Script.ofText rules t).marks
    have hatt := attached_of_no_stray hsh.symm hstray
    constructor
    · exact twice_eq_once_iff hterm hsh.symm hatt
    · intro _
      obtain ⟨front, back, honce, htwice, hnotes, hsolid⟩ := exists_twice hterm hsh.symm hatt
      rw [htwice, honce]
      exact dropsBlanks_glue hnotes hsolid

def spacedComments : Text := "# a\n\n# b\n\n# c\n\nvar x\n".toList

theorem spacedComments_remarks : (arrange .default spacedComments).remarks = [] := by decide +kernel

theorem spacedComments_once :
    (arrange .default spacedComments).text = "# a\n# b\n# c\n\nvar x\n".toList := by decide +kernel

theorem spacedComments_drop_blanks :
    (∀ r ∈ (arrange .default spacedComments).remarks, r.cause ≠ .unterminated) ∧
    (∀ r ∈ (arrange .default spacedComments).remarks, ∀ head, r.cause ≠ .stray head) ∧
    (let once := (arrange .default spacedComments).text
      let twice := (arrange .default once).text
      twice ≠ once ∧
      filled (Script.ofText .default twice).marks = filled (Script.ofText .default once).marks ∧
      DropsBlanks (Script.ofText .default once).marks (Script.ofText .default twice).marks) := by
  have hterm : ∀ r ∈ (arrange .default spacedComments).remarks, r.cause ≠ .unterminated := by
    simp [spacedComments_remarks]
  have hstray : ∀ r ∈ (arrange .default spacedComments).remarks, ∀ head, r.cause ≠ .stray head := by
    simp [spacedComments_remarks]
  have happ : OpensApart (Script.ofText .default (arrange .default spacedComments).text).marks := by
    rw [spacedComments_once]
    exact ⟨[("# a".toList, .comment), ("# b".toList, .comment), ("# c".toList, .comment)],
      ([], .blank), [("var x".toList, .declaration .publicVar)], by decide, by decide, by simp, rfl⟩
  obtain ⟨hfilled, hsecond⟩ := second_pass_drops_blanks hterm
  obtain ⟨hiff, hdrops⟩ := hsecond hstray
  exact ⟨hterm, hstray, fun hsame => hiff.mp hsame happ, hfilled, hdrops happ⟩

end Arrange

end ScriptOrder
