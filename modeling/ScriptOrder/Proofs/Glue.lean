import Mathlib.Data.List.Basic
import ScriptOrder.Proofs.Passage
import ScriptOrder.Proofs.Runs

/-!
# Gluing the opening comments

Gluing drops the blank lines after the comments that open a list of marks. It
may bring comments together, and then a blank line that followed the second
run follows the first: gluing changes a list exactly if the list opens apart.
-/

set_option autoImplicit false

namespace ScriptOrder.Marks

theorem BeginsFilled.stops {ms : List Mark} (h : BeginsFilled ms) :
    ∀ m ∈ ms.head?, m.2.isBlank = false := by simpa [BeginsFilled] using h

theorem BeginsUncommented.stops {ms : List Mark} (h : BeginsUncommented ms) :
    ∀ m ∈ ms.head?, m.2.isComment = false := by simpa [BeginsUncommented] using h

theorem Comments.all {ms : List Mark} (h : Comments ms) : ∀ m ∈ ms, m.2.isComment = true := by
  simpa [Comments] using h

theorem Blanks.all {ms : List Mark} (h : Blanks ms) : ∀ m ∈ ms, m.2.isBlank = true := by
  simpa [Blanks] using h

theorem glue_unopened {ms : List Mark} (h : BeginsUncommented ms) : glue ms = ms := by
  have hrun : ([] ++ ms).takeWhile (fun m : Mark => m.2.isComment) = [] :=
    takeWhile_run (by simp) h.stops
  rw [List.nil_append] at hrun
  rw [glue, hrun]
  rfl

theorem glue_run {run gap rest : List Mark} (hr : Comments run) (hne : run ≠ [])
    (hg : Blanks gap) (hrest : BeginsFilled rest) (hends : BeginsUncommented (gap ++ rest)) :
    glue (run ++ (gap ++ rest)) = run ++ rest := by
  rw [glue, takeWhile_run hr.all hends.stops, dropWhile_run hr.all hends.stops,
    dropWhile_run hg.all hrest.stops, if_neg]
  simpa using hne

/-- Every list of marks is a run of comments, blank lines and the rest, and
gluing takes out the blank lines if there is a run. -/
theorem exists_glue (ms : List Mark) : ∃ run gap rest, ms = run ++ (gap ++ rest) ∧
    Comments run ∧ Blanks gap ∧ BeginsFilled rest ∧ BeginsUncommented (gap ++ rest) ∧
    glue ms = if run = [] then ms else run ++ rest := by
  obtain ⟨run, after, rfl, hr, hends⟩ := exists_comments ms
  obtain ⟨gap, rest, rfl, hg, hrest⟩ := exists_blanks after
  refine ⟨run, gap, rest, rfl, hr, hg, hrest, hends, ?_⟩
  by_cases hrun : run = []
  · subst hrun
    rw [if_pos rfl]
    exact glue_unopened hends
  · rw [if_neg hrun]
    exact glue_run hr hrun hg hrest hends

theorem glue_sublist (ms : List Mark) : (glue ms).Sublist ms := by
  obtain ⟨run, gap, rest, rfl, -, -, -, -, hglue⟩ := exists_glue ms
  rw [hglue]
  split
  · exact List.Sublist.refl _
  · exact (List.Sublist.refl run).append (List.sublist_append_right gap rest)

@[simp] theorem filled_glue (ms : List Mark) : filled (glue ms) = filled ms := by
  obtain ⟨run, gap, rest, rfl, -, hg, -, -, hglue⟩ := exists_glue ms
  rw [hglue]
  split
  · rfl
  · simp [filled_blanks hg]

theorem glue_begins {ms : List Mark} (h : BeginsFilled ms) : BeginsFilled (glue ms) := by
  obtain ⟨run, gap, rest, rfl, hr, -, -, -, hglue⟩ := exists_glue ms
  rw [hglue]
  split
  · exact h
  · rename_i hrun
    exact (beginsFilled_append hrun).mpr hr.beginsFilled

theorem glue_ends {ms : List Mark} (h : EndsFilled ms) : EndsFilled (glue ms) := by
  obtain ⟨run, gap, rest, rfl, hr, -, -, -, hglue⟩ := exists_glue ms
  rw [hglue]
  split
  · exact h
  · by_cases hrest : rest = []
    · rw [hrest, List.append_nil]
      exact hr.endsFilled
    · exact (endsFilled_append hrest).mpr h.of_append.of_append

theorem glue_notes {ms : List Mark} (h : Notes ms) : Notes (glue ms) :=
  fun m hm => h m ((glue_sublist ms).subset hm)

theorem glue_front {front back : List Mark} (hback : BeginsSolid back) :
    glue (front ++ back) = glue front ++ back := by
  obtain ⟨run, gap, rest, rfl, hr, hg, hrest, hends, hglue⟩ := exists_glue front
  have hrest' : BeginsFilled (rest ++ back) := hrest.append hback.filled
  have hends' : BeginsUncommented (gap ++ (rest ++ back)) := by
    rw [← List.append_assoc]
    exact hends.append hback.uncommented
  by_cases hrun : run = []
  · subst hrun
    rw [hglue, if_pos rfl]
    apply glue_unopened
    simpa using hends'
  · rw [hglue, if_neg hrun, List.append_assoc, List.append_assoc, List.append_assoc]
    exact glue_run hr hrun hg hrest' hends'

/-- The marks open with comments that a blank line follows. -/
def OpensApart (ms : List Mark) : Prop := ∃ run m rest, ms = run ++ m :: rest ∧ run ≠ [] ∧
  Comments run ∧ m.2 = .blank

theorem opensApart_iff {run gap rest : List Mark} (hr : Comments run) (hg : Blanks gap)
    (hrest : BeginsFilled rest) (hends : BeginsUncommented (gap ++ rest)) :
    OpensApart (run ++ (gap ++ rest)) ↔ run ≠ [] ∧ gap ≠ [] := by
  constructor
  · rintro ⟨run', m, rest', heq, hne, hc, hm⟩
    obtain ⟨rfl, hafter⟩ := run_unique hr.all hc.all hends.stops (by simp [hm]) heq
    refine ⟨hne, ?_⟩
    rintro rfl
    rw [List.nil_append] at hafter
    exact hrest m (by simp [hafter]) hm
  · rintro ⟨hne, hgap⟩
    obtain ⟨m, gap, rfl⟩ := List.exists_cons_of_ne_nil hgap
    exact ⟨run, m, gap ++ rest, rfl, hne, hr, hg m (by simp)⟩

theorem glue_eq_self_iff (ms : List Mark) : glue ms = ms ↔ ¬ OpensApart ms := by
  obtain ⟨run, gap, rest, rfl, hr, hg, hrest, hends, hglue⟩ := exists_glue ms
  rw [opensApart_iff hr hg hrest hends, hglue]
  by_cases hrun : run = []
  · simp [hrun]
  · simp [hrun]

theorem glue_glue_eq_self_iff (ms : List Mark) : glue (glue ms) = ms ↔ glue ms = ms := by
  constructor
  · intro h
    apply (glue_sublist ms).eq_of_length_le
    have hlen := (glue_sublist (glue ms)).length_le
    rwa [h] at hlen
  · intro h
    rw [h, h]

theorem opensApart_append {front back : List Mark} (hback : BeginsSolid back) :
    OpensApart (front ++ back) ↔ OpensApart front := by
  rw [← not_iff_not, ← glue_eq_self_iff, ← glue_eq_self_iff, glue_front hback,
    List.append_cancel_right_eq]

theorem OpensApart.beginsFilled {ms : List Mark} (h : OpensApart ms) : BeginsFilled ms := by
  obtain ⟨run, m, rest, rfl, hne, hc, -⟩ := h
  exact (beginsFilled_append hne).mpr hc.beginsFilled

theorem comments_not_apart {ms : List Mark} (h : Comments ms) : ¬ OpensApart ms := by
  rintro ⟨run, m, rest, rfl, -, -, hm⟩
  have hc := h m (by simp)
  simp [hm] at hc

theorem Notes.eq_nil_of_head {ms : List Mark} (hn : Notes ms) (hb : BeginsFilled ms)
    (hc : BeginsUncommented ms) : ms = [] := by
  cases ms with
  | nil => rfl
  | cons m ms =>
    rcases ((notes_cons m ms).mp hn).1 with hm | hm
    · exact absurd hm (hc m rfl)
    · exact absurd hm ((beginsFilled_cons m ms).mp hb)

theorem exists_front {ms : List Mark} (hn : Notes ms) (hb : BeginsFilled ms) :
    ∃ run gap lead, ms = run ++ (gap ++ lead) ∧ glue ms = run ++ lead ∧ Comments run ∧
      Blanks gap ∧ Notes lead ∧ BeginsFilled lead ∧ BeginsUncommented (gap ++ lead) ∧
      (run = [] → gap = [] ∧ lead = []) := by
  obtain ⟨run, gap, rest, rfl, hr, hg, hrest, hends, hglue⟩ := exists_glue ms
  have hnil (hrun : run = []) : gap = [] ∧ rest = [] := by
    subst hrun
    exact List.append_eq_nil_iff.mp (hn.eq_nil_of_head hb hends)
  rw [notes_append, notes_append] at hn
  refine ⟨run, gap, rest, rfl, ?_, hr, hg, hn.2.2, hrest, hends, hnil⟩
  rw [hglue]
  split
  · rename_i hrun
    rw [(hnil hrun).1, List.nil_append]
  · rfl

theorem opensApart_comments {run ms : List Mark} (hr : Comments run) (hn : Notes ms)
    (hb : BeginsFilled ms) : OpensApart (run ++ ms) ↔ OpensApart ms := by
  obtain ⟨run', gap, rest, rfl, -, hr', hg, -, hrest, hends, hnil⟩ := exists_front hn hb
  have hboth : Comments (run ++ run') := (comments_append _ _).mpr ⟨hr, hr'⟩
  rw [← List.append_assoc, opensApart_iff hboth hg hrest hends, opensApart_iff hr' hg hrest hends]
  constructor
  · rintro ⟨-, hgap⟩
    exact ⟨fun hrun => hgap (hnil hrun).1, hgap⟩
  · rintro ⟨hrun, hgap⟩
    exact ⟨by simp [hrun], hgap⟩

end ScriptOrder.Marks
