import Mathlib.Data.List.Basic
import ScriptOrder.Proofs.Conservation
import ScriptOrder.Proofs.Enclosures

/-!
# Reading an arranged script again

If no string is left open at the end of a script, none is open at either end
of a section, of the tail or of the opening comment. The lines of the arranged
script then read as they did, wherever they moved.
-/

set_option autoImplicit false

namespace ScriptOrder
open Marks

variable {rules : Rulebook}

namespace Section

theorem marks_uncoded {s : Section} (hs : s.Attached) (rest : List Mark) :
    BeginsUncoded (s.marks ++ rest) := by
  intro m hm
  have hlead : Notes (s.gap ++ s.lead) := (notes_append _ _).mpr ⟨s.gap_blank.notes, hs⟩
  rw [marks, rows, ← List.append_assoc] at hm
  cases hstart : s.gap ++ s.lead with
  | nil =>
    have hhead : s.head = m := by simpa [hstart] using hm
    simp [← hhead, head]
  | cons n ns =>
    obtain rfl : n = m := by simpa [hstart] using hm
    have hn := hlead n (by simp [hstart])
    rcases hn with hn | hn <;> simp [hn]

theorem marks_solid (s : Section) : EndsSolid s.marks :=
  (endsSolid_append s.rows_ne_nil).mpr s.rows_solid

theorem closed_marks {s : Section} {rest : List Mark} (h : Closed rules (s.marks ++ rest))
    (hrest : BeginsUncoded rest) : Closed rules s.marks := by
  obtain ⟨f, hmarks, hf⟩ := reads_append.mp h
  have hsolid := hmarks.solid s.marks_solid (by simp)
  obtain rfl := hf.uncoded hrest hsolid
  exact hmarks

end Section

namespace Outline

theorem sections_uncoded {sections : List Section} {rest : List Mark}
    (hatt : ∀ s ∈ sections, s.Attached) (hrest : BeginsUncoded rest) :
    BeginsUncoded (sections.flatMap Section.marks ++ rest) := by
  cases sections with
  | nil => simpa using hrest
  | cons s ss =>
    rw [List.flatMap_cons, List.append_assoc]
    exact Section.marks_uncoded (hatt s (by simp)) _

theorem closed_sections {sections : List Section} {rest : List Mark}
    (hatt : ∀ s ∈ sections.tail, s.Attached)
    (hrest : sections ≠ [] → BeginsUncoded rest)
    (h : Closed rules (sections.flatMap Section.marks ++ rest)) :
    (∀ s ∈ sections, Closed rules s.marks) ∧ Closed rules rest := by
  induction sections with
  | nil => exact ⟨by simp, by simpa using h⟩
  | cons s ss ih =>
    have hss : ∀ t ∈ ss, t.Attached := hatt
    rw [List.flatMap_cons, List.append_assoc] at h
    have hmarks := Section.closed_marks h (sections_uncoded hss (hrest (by simp)))
    obtain ⟨hsections, hend⟩ := ih (fun t ht => hss t (List.mem_of_mem_tail ht))
      (fun _ => hrest (by simp)) (h.of_append hmarks)
    constructor
    · intro t ht
      rcases List.mem_cons.mp ht with rfl | ht
      · exact hmarks
      · exact hsections t ht
    · exact hend

theorem closed_flatMap {sections : List Section} (h : ∀ s ∈ sections, Closed rules s.marks) :
    Closed rules (sections.flatMap Section.marks) := by
  induction sections with
  | nil => rfl
  | cons s ss ih =>
    rw [List.flatMap_cons]
    exact (h s (by simp)).append (ih fun t ht => h t (by simp [ht]))

theorem tail_uncoded (o : Outline) (h : o.sections ≠ []) :
    BeginsUncoded (o.gap ++ (o.tail ++ o.after)) := by
  intro m hm
  have hnotes : Notes (o.gap ++ (o.tail ++ o.after)) := by
    simp [o.gap_blank.notes, o.tail_notes h, o.after_blank.notes]
  rcases hnotes m (List.mem_of_mem_head? hm) with hc | hb
  · simp [hc]
  · simp [hb]

theorem closed_passages (o : Outline) (h : Closed rules o.marks) :
    ∀ p ∈ o.passages rules, Closed rules p.rows := by
  obtain ⟨hsections, hrest⟩ := closed_sections o.attached o.tail_uncoded h
  obtain ⟨f, htail, hafter⟩ := reads_append.mp (hrest.of_blanks o.gap_blank)
  obtain rfl := hafter.blanks o.after_blank
  exact forall_passages (fun s hs => (hsections s hs).of_blanks s.gap_blank) htail

end Outline

namespace Passage

theorem closed_gap (previous : Option Passage) (p : Passage) : Closed rules (gap previous p) := by
  cases previous with
  | none => rfl
  | some q =>
    rw [gap]
    split
    · exact ⟨rfl, rfl⟩
    · rfl

theorem closed_stack {ps : List Passage} (h : ∀ p ∈ ps, Closed rules p.rows)
    (previous : Option Passage) : Closed rules (stack previous ps) := by
  induction ps generalizing previous with
  | nil => rfl
  | cons p ps ih =>
    have hrest := ih (fun q hq => h q (by simp [hq])) (some p)
    exact ((closed_gap previous p).append (h p (by simp))).append hrest

end Passage

namespace Marks

theorem Closed.glue {ms : List Mark} (h : Closed rules ms) : Closed rules (glue ms) := by
  obtain ⟨run, gap, rest, rfl, -, hg, -, -, hglue⟩ := exists_glue ms
  rw [hglue]
  split
  · exact h
  · obtain ⟨f, hrun, hafter⟩ := reads_append.mp h
    obtain ⟨g, hgap, hrest⟩ := reads_append.mp hafter
    obtain rfl := hgap.blanks hg
    exact reads_append.mpr ⟨f, hrun, hrest⟩

end Marks

namespace Sheet

theorem closed_parts (sh : Sheet) (h : Closed rules sh.marks) :
    Closed rules sh.opening ∧ Closed rules sh.outline.marks := by
  obtain ⟨f, hopening, houtline⟩ := reads_append.mp (h.of_blanks sh.before_blank)
  obtain rfl := houtline.uncommented sh.run_ends (hopening.comments sh.opening_comments (by simp))
  exact ⟨hopening, houtline⟩

theorem closed_sorted (sh : Sheet) (h : Closed rules sh.marks) :
    ∀ p ∈ Passage.sort (sh.outline.passages rules), Closed rules p.rows := by
  obtain ⟨-, houtline⟩ := sh.closed_parts h
  intro p hp
  exact sh.outline.closed_passages houtline p ((StableSort.mem_sorted _).mp hp)

theorem closed_arranged (sh : Sheet) (h : Closed rules sh.marks) : Closed rules (sh.arranged rules) := by
  obtain ⟨hopening, -⟩ := sh.closed_parts h
  exact (hopening.append (Passage.closed_stack (sh.closed_sorted h) none)).glue

end Sheet

namespace Arrange

/-- Every string of the script ends. -/
def Terminated (t : Text) : Prop := Reading.remarks (Lines.lines (Lines.unify t)) = []

variable {t : Text}

theorem closed_marks (h : Terminated t) : Closed rules (Script.ofText rules t).marks := by
  have hend := (Reading.remarks_eq_nil _).mp h
  have hread := reads_zip rules .outside (Lines.lines (Lines.unify t))
  rwa [hend] at hread

theorem marks_of_closed {ms : List Mark} (h : Closed rules ms) :
    (Script.ofLines rules (ms.map Prod.fst)).marks = ms := by
  have hread : (Script.ofLines rules (ms.map Prod.fst)).readings = ms.map Prod.snd := h.readings
  rw [Script.marks, hread]
  exact (List.zip_of_prod rfl rfl).symm

theorem lines_arranged (sh : Sheet) (hsh : (Script.ofText rules t).marks = sh.marks) :
    Lines.lines (Lines.unify (arrange rules t).text) = (sh.arranged rules).map Prod.fst :=
  sh.lines_unify_text (Lines.lines_plain t) hsh (Script.ofLines_even rules _)

theorem marks_arranged (h : Terminated t) (sh : Sheet)
    (hsh : (Script.ofText rules t).marks = sh.marks) :
    (Script.ofText rules (arrange rules t).text).marks = sh.arranged rules := by
  have hclosed : Closed rules sh.marks := hsh ▸ closed_marks h
  rw [Script.ofText, lines_arranged sh hsh]
  exact marks_of_closed (sh.closed_arranged hclosed)

theorem terminated_arranged (h : Terminated t) : Terminated (arrange rules t).text := by
  obtain ⟨sh, hsh⟩ := Sheet.exists_sheet (Script.ofText rules t).marks
  have hclosed : Closed rules sh.marks := hsh ▸ closed_marks h
  rw [Terminated, lines_arranged sh hsh.symm, Reading.remarks_eq_nil]
  exact (sh.closed_arranged hclosed).afterAll

end Arrange

end ScriptOrder
