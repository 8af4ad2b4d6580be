import Mathlib.Data.List.Basic
import ScriptOrder.Proofs.ConvertedText
import ScriptOrder.Proofs.Rewording
import ScriptOrder.Proofs.Spacing

/-!
# Converting and arranging

The sheet of a converted script is the sheet of the script with each piece
converted. Sorting, spacing and gluing look at nothing the conversion changes, so
they may come before it or after it.
-/

set_option autoImplicit false

namespace ScriptOrder
open Marks Reading

variable {rules : Rulebook}

namespace Reading

theorem outside_of_declaration {line : Line} {e : Enclosure} {k : Kind}
    (h : inside rules line e = .declaration k) : e = .outside := by
  cases e <;> simp_all [inside]

end Reading

namespace Marks

variable {ms : List Mark}

theorem glue_converted (h : Closed rules ms) :
    glue (converted rules .outside ms) = converted rules .outside (glue ms) := by
  obtain ⟨run, gap, rest, rfl, hr, hg, hrest, hends, hglue⟩ := exists_glue ms
  obtain ⟨f, hrun, hafter⟩ := reads_append.mp h
  -- The mark after the run is no comment, so no docstring is open between them.
  obtain rfl := hafter.uncommented hends (hrun.comments hr (by simp))
  have hrun : Closed rules run := hrun
  have hafter : Closed rules (gap ++ rest) := hafter
  have hgap : Closed rules gap := hafter.blanks_left hg
  have hclosed : Closed rules rest := hafter.of_blanks hg
  have hbegins : BeginsUncommented (gap ++ converted rules .outside rest) := by
    have hrewords := hafter.reworded
    rw [hgap.converted_append, hgap.converted_blanks hg] at hrewords
    exact hrewords.beginsUncommented_iff.mpr hends
  have hsplit : converted rules .outside (run ++ (gap ++ rest)) =
      converted rules .outside run ++ (gap ++ converted rules .outside rest) := by
    rw [hrun.converted_append, hgap.converted_append, hgap.converted_blanks hg]
  rw [hglue]
  by_cases hnil : run = []
  · subst hnil
    rw [if_pos rfl, hsplit]
    exact glue_unopened hbegins
  · rw [if_neg hnil, hsplit, hrun.converted_append]
    exact glue_run (hrun.reworded.comments_iff.mpr hr)
      (mt hrun.reworded.eq_nil_iff.mp hnil) hg
      (hclosed.reworded.beginsFilled_iff.mpr hrest) hbegins

theorem isTall_converted (h : Closed rules ms) :
    Layout.isTall (converted rules .outside ms) = Layout.isTall ms := by
  rw [Layout.isTall, Layout.isTall, h.reworded.countP (p := Reading.isSolid) rfl]

end Marks

namespace Passage

def converted (rules : Rulebook) (p : Passage) : Passage :=
  ⟨Marks.converted rules .outside p.rows, p.kind⟩

theorem sort_converted (ps : List Passage) :
    sort (ps.map (converted rules)) = (sort ps).map (converted rules) := by
  have hkey (p q : Passage) : StableSort.byKey (fun r => r.kind.rank) p q =
      StableSort.byKey (fun r => r.kind.rank) (p.converted rules) (q.converted rules) := rfl
  exact (List.map_mergeSort fun p _ q _ => hkey p q).symm

theorem gap_converted {previous : Option Passage} (hprevious : ∀ p ∈ previous, Closed rules p.rows)
    {p : Passage} (hp : Closed rules p.rows) :
    gap (previous.map (converted rules)) (p.converted rules) = gap previous p := by
  cases previous with
  | none => rfl
  | some q =>
    have hq : Closed rules q.rows := hprevious q rfl
    have hapart : apart (q.converted rules) (p.converted rules) = apart q p := by
      rw [apart, apart, converted, converted, isTall_converted hq, isTall_converted hp]
    rw [Option.map_some, gap, gap, hapart]

theorem stack_converted {previous : Option Passage} {ps : List Passage}
    (hprevious : ∀ p ∈ previous, Closed rules p.rows) (h : ∀ p ∈ ps, Closed rules p.rows) :
    stack (previous.map (converted rules)) (ps.map (converted rules)) =
      Marks.converted rules .outside (stack previous ps) := by
  induction ps generalizing previous with
  | nil => rfl
  | cons p ps ih =>
    rw [List.forall_mem_cons] at h
    have hfirst : ∀ q ∈ some p, Closed rules q.rows := by simpa using h.1
    have hrest := ih hfirst h.2
    have hgap : Closed rules (gap previous p) := closed_gap previous p
    rw [List.map_cons, stack, stack, gap_converted hprevious h.1, ← Option.map_some, hrest,
      (hgap.append h.1).converted_append, hgap.converted_append,
      hgap.converted_blanks (gap_blank previous p)]
    rfl

end Passage

namespace Section

theorem exists_converted {s : Section} (h : Closed rules s.marks) : ∃ t : Section,
    t.marks = converted rules .outside s.marks ∧
      t.passage rules = (s.passage rules).converted rules ∧ (s.Attached → t.Attached) := by
  have hgap : Closed rules s.gap := h.blanks_left s.gap_blank
  have hrows : Closed rules s.rows := h.of_blanks s.gap_blank
  obtain ⟨f, hlead, hhead, hbody⟩ := reads_append.mp hrows
  -- The lead is closed, but the declaration may open a literal for the body.
  obtain rfl := outside_of_declaration hhead
  have hlead : Closed rules s.lead := hlead
  have hafter : Enclosure.outside.after s.line ≠ .inComment := by
    apply after_uncommented
    rw [show inside rules s.line .outside = s.head.2 from hhead]
    simp [head]
  have hwords := hlead.reworded
  have hbwords := hbody.reworded hafter
  let t : Section :=
    { gap := s.gap, lead := converted rules .outside s.lead, line := s.line, kind := s.kind,
      body := converted rules (Enclosure.outside.after s.line) s.body, gap_blank := s.gap_blank,
      lead_undeclared := hwords.undeclared_iff.mpr s.lead_undeclared,
      lead_filled := hwords.beginsFilled_iff.mpr s.lead_filled,
      body_undeclared := hbwords.undeclared_iff.mpr s.body_undeclared,
      body_solid := hbwords.endsSolid_iff.mpr s.body_solid }
  have htrows : t.rows = converted rules .outside s.rows := by
    rw [rows, rows, hlead.converted_append,
      Reads.converted_cons (by simp) ⟨hhead, hbody⟩ (by simp [head])]
    rfl
  refine ⟨t, ?_, ?_, ?_⟩
  · rw [marks, marks, hgap.converted_append, hgap.converted_blanks s.gap_blank, htrows]
  · rw [passage, htrows]
    rfl
  · exact hwords.notes_iff.mpr

end Section

namespace Outline

theorem exists_converted_sections {ss : List Section} (h : ∀ s ∈ ss, Closed rules s.marks) :
    ∃ ts : List Section,
      ts.flatMap Section.marks = converted rules .outside (ss.flatMap Section.marks) ∧
      ts.map (Section.passage rules) = (ss.map (Section.passage rules)).map (Passage.converted rules) ∧
      ((∀ s ∈ ss, s.Attached) → ∀ t ∈ ts, t.Attached) ∧
      ((∀ s ∈ ss.tail, s.Attached) → ∀ t ∈ ts.tail, t.Attached) := by
  induction ss with
  | nil => exact ⟨[], rfl, rfl, by simp, by simp⟩
  | cons s ss ih =>
    rw [List.forall_mem_cons] at h
    obtain ⟨t, hmarks, hpassage, hatt⟩ := Section.exists_converted h.1
    obtain ⟨ts, hmarks', hpassages, hatts, -⟩ := ih h.2
    refine ⟨t :: ts, ?_, ?_, ?_, hatts⟩
    · rw [List.flatMap_cons, List.flatMap_cons, h.1.converted_append, hmarks, hmarks']
    · rw [List.map_cons, List.map_cons, List.map_cons, hpassage, hpassages]
    · intro hall
      rw [List.forall_mem_cons] at hall ⊢
      exact ⟨hatt hall.1, hatts hall.2⟩

theorem exists_converted (o : Outline) (h : Closed rules o.marks) : ∃ p : Outline,
    p.marks = converted rules .outside o.marks ∧
      p.passages rules = (o.passages rules).map (Passage.converted rules) := by
  obtain ⟨hsections, hrest⟩ := closed_sections o.attached o.tail_uncoded h
  have hgap : Closed rules o.gap := hrest.blanks_left o.gap_blank
  obtain ⟨f, htail, hafter⟩ := reads_append.mp (hrest.of_blanks o.gap_blank)
  obtain rfl := hafter.blanks o.after_blank
  have htail : Closed rules o.tail := htail
  have hafter : Closed rules o.after := hafter
  have hwords := htail.reworded
  obtain ⟨ts, hmarks, hpassages, -, hatts⟩ := exists_converted_sections hsections
  have hnotes (hne : ts ≠ []) : Notes (converted rules .outside o.tail) := by
    apply hwords.notes_iff.mpr
    apply o.tail_notes
    intro hnil
    rw [hnil] at hpassages
    exact hne (List.map_eq_nil_iff.mp hpassages)
  refine ⟨⟨ts, o.gap, converted rules .outside o.tail, o.after, hatts o.attached, o.gap_blank,
    o.after_blank, hwords.undeclared_iff.mpr o.tail_undeclared,
    hwords.beginsFilled_iff.mpr o.tail_begins,
    hwords.endsFilled_iff.mpr o.tail_ends, hnotes⟩, ?_, ?_⟩
  · rw [marks, marks, (closed_flatMap hsections).converted_append, hgap.converted_append,
      htail.converted_append, hgap.converted_blanks o.gap_blank,
      hafter.converted_blanks o.after_blank, hmarks]
  · rw [passages, passages, List.map_append, hpassages, tailPassages, tailPassages]
    by_cases hnil : o.tail = []
    · rw [if_pos hnil, if_pos (hwords.eq_nil_iff.mpr hnil)]
      rfl
    · rw [if_neg hnil, if_neg (mt hwords.eq_nil_iff.mp hnil)]
      rfl

end Outline

namespace Sheet

theorem exists_converted (sh : Sheet) (h : Closed rules sh.marks) : ∃ again : Sheet,
    again.marks = converted rules .outside sh.marks ∧
      again.opening = converted rules .outside sh.opening ∧
      again.outline.passages rules = (sh.outline.passages rules).map (Passage.converted rules) := by
  have hbefore : Closed rules sh.before := h.blanks_left sh.before_blank
  obtain ⟨hopening, houtline⟩ := sh.closed_parts h
  obtain ⟨o, hmarks, hpassages⟩ := sh.outline.exists_converted houtline
  have hwords := houtline.reworded
  have hends : BeginsUncommented o.marks := by
    rw [hmarks]
    exact hwords.beginsUncommented_iff.mpr sh.run_ends
  have hunopened (hnil : converted rules .outside sh.opening = []) : o.marks = [] ∨ sh.before = [] ∧
      ∃ gap m rest, o.marks = gap ++ m :: rest ∧ Blanks gap ∧ m.2.isSolid = true := by
    rw [hmarks]
    rcases sh.unopened (hopening.reworded.eq_nil_iff.mp hnil) with hnone | ⟨hfirst, gap, m, rest,
      hsplit, hg, hm⟩
    · exact Or.inl (hwords.eq_nil_iff.mpr hnone)
    · rw [hsplit] at houtline ⊢
      have hgap : Closed rules gap := houtline.blanks_left hg
      have hrest : Closed rules (m :: rest) := houtline.of_blanks hg
      refine Or.inr ⟨hfirst, gap, m, converted rules (Enclosure.outside.after m.1) rest, ?_, hg, hm⟩
      rw [hgap.converted_append, hgap.converted_blanks hg,
        Reads.converted_cons (by simp) hrest ((isSolid_iff m.2).mp hm).1]
  refine ⟨⟨sh.before, converted rules .outside sh.opening, o, sh.before_blank,
    hopening.reworded.comments_iff.mpr sh.opening_comments, hends, hunopened⟩, ?_,
    rfl, hpassages⟩
  rw [marks, marks, hbefore.converted_append, hopening.converted_append,
    hbefore.converted_blanks sh.before_blank, hmarks]

theorem arranged_converted {sh again : Sheet} (h : Closed rules sh.marks)
    (hopening : again.opening = converted rules .outside sh.opening)
    (hpassages : again.outline.passages rules =
      (sh.outline.passages rules).map (Passage.converted rules)) :
    again.arranged rules = converted rules .outside (sh.arranged rules) := by
  have hopened : Closed rules sh.opening := (sh.closed_parts h).1
  have hclosed := sh.closed_sorted h
  have hnone : ∀ p ∈ (none : Option Passage), Closed rules p.rows := by simp
  have hstack := Passage.stack_converted hnone hclosed
  rw [Option.map_none] at hstack
  rw [arranged, arranged, hopening, hpassages, Passage.sort_converted, hstack,
    ← hopened.converted_append]
  exact glue_converted (hopened.append (Passage.closed_stack hclosed none))

end Sheet

namespace Arrange
open Docstring

variable {t : Text}

theorem marks_convert (ht : Lines.unify t ≠ ['\n']) : (Script.ofText rules (convert t)).marks =
    converted rules .outside (Script.ofText rules t).marks := by
  have hlines : (Script.ofText rules t).marks.map Prod.fst = Lines.lines (Lines.unify t) :=
    map_marksIn .outside _
  rw [converted, hlines, Script.ofText, lines_convert ht]
  rfl

theorem text_blank (h : Blanks (Script.ofText rules t).marks) : (arrange rules t).text = [] := by
  obtain ⟨sh, hsh⟩ := Sheet.exists_sheet (Script.ofText rules t).marks
  rw [text_arranged hsh.symm, sh.arranged_eq_nil_iff.mpr (hsh ▸ h)]
  rfl

/-- If every string of a script ends, converting its docstrings and arranging it
may be done in either order. -/
theorem convert_commutes (h : Terminated t) :
    (arrange rules (convert t)).text = convert (arrange rules t).text := by
  -- Of a single empty line the conversion leaves none: its lines are not the converted lines.
  by_cases ht : Lines.unify t = ['\n']
  · have hblank : Blanks (Script.ofText rules t).marks := by
      rw [Script.ofText, ht]
      exact (blanks_cons _ _).mpr ⟨rfl, blanks_nil⟩
    have hnone : Blanks (Script.ofText rules []).marks := blanks_nil
    rw [convert_break ht, text_blank hblank, text_blank hnone]
    rfl
  · obtain ⟨sh, hsh⟩ := Sheet.exists_sheet (Script.ofText rules t).marks
    have hclosed : Closed rules sh.marks := hsh ▸ closed_marks h
    obtain ⟨again, hmarks, hopening, hpassages⟩ := sh.exists_converted hclosed
    have hagain : (Script.ofText rules (convert t)).marks = again.marks := by
      rw [marks_convert ht, ← hsh, hmarks]
    have hinked : (sh.arranged rules).map Prod.fst ≠ [[]] := by
      intro hone
      obtain ⟨m, hm, hline⟩ := List.map_eq_singleton_iff.mp hone
      have hink := (sh.closed_arranged hclosed).head_ink sh.arranged_begins m (by rw [hm]; rfl)
      simp [hline, isBlankLine] at hink
    calc (arrange rules (convert t)).text
        = Lines.unlines ((again.arranged rules).map Prod.fst) := text_arranged hagain
      _ = Lines.unlines (convertLines ((sh.arranged rules).map Prod.fst)) := by
          rw [Sheet.arranged_converted hclosed hopening hpassages, converted_lines]
          rfl
      _ = convert (Lines.unlines ((sh.arranged rules).map Prod.fst)) :=
          (convert_unlines (Sheet.plain_arranged (Lines.lines_plain t) sh hsh.symm) hinked).symm
      _ = convert (arrange rules t).text := by rw [text_arranged hsh.symm]

def documentedScript : Text :=
  "func f():\n\tpass\n\"\"\"\nThe speed.\n\"\"\" # m/s\nvar speed\n".toList

theorem documentedScript_commutes : Terminated documentedScript ∧
    convert documentedScript = "func f():\n\tpass\n# The speed.\n# # m/s\nvar speed\n".toList ∧
    (arrange .default (convert documentedScript)).text =
      convert (arrange .default documentedScript).text := by
  have hterm : Terminated documentedScript := by
    rw [Terminated]
    decide
  exact ⟨hterm, by decide, convert_commutes hterm⟩

end Arrange

end ScriptOrder
