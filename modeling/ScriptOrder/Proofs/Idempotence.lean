import ScriptOrder.Proofs.SecondPass

/-!
# When one pass is enough

Arranging again can change a script about which there was nothing to remark.
The block that comes first leads with its comments, and these join the opening
comment. If they are two runs, each with a blank line after it, the first pass
glues the second run to the first, and only the second pass sees the blank
line that follows now.
-/

set_option autoImplicit false

namespace ScriptOrder
open Marks

namespace Marks

/-- The marks open with two runs of comments, and a blank line follows each. -/
def OpensApartTwice (ms : List Mark) : Prop := ∃ run gap rest, ms = run ++ (gap ++ rest) ∧
  run ≠ [] ∧ gap ≠ [] ∧ Comments run ∧ Blanks gap ∧ OpensApart rest

theorem opensApartTwice_iff {run gap rest : List Mark} (hr : Comments run) (hg : Blanks gap)
    (hrest : BeginsFilled rest) (hends : BeginsUncommented (gap ++ rest)) :
    OpensApartTwice (run ++ (gap ++ rest)) ↔ run ≠ [] ∧ gap ≠ [] ∧ OpensApart rest := by
  constructor
  · rintro ⟨run', gap', rest', heq, hrun, hgap, hr', hg', happ⟩
    have hends' : BeginsUncommented (gap' ++ rest') := by
      obtain ⟨g, gap', rfl⟩ := List.exists_cons_of_ne_nil hgap
      intro m hm
      simp [← Option.some_inj.mp hm, hg' g (by simp)]
    obtain ⟨rfl, hafter⟩ := run_unique hr.all hr'.all hends.stops hends'.stops heq
    obtain ⟨rfl, rfl⟩ := run_unique hg.all hg'.all hrest.stops happ.beginsFilled.stops hafter
    exact ⟨hrun, hgap, happ⟩
  · rintro ⟨hrun, hgap, happ⟩
    exact ⟨run, gap, rest, rfl, hrun, hgap, hr, hg, happ⟩

theorem opensApart_glue {opening lead back : List Mark} (ho : Comments opening) (hn : Notes lead)
    (hb : BeginsFilled lead) (hback : BeginsSolid back) :
    OpensApart (glue (opening ++ lead)) ↔ OpensApartTwice (lead ++ back) := by
  obtain ⟨run, gap, rest, rfl, -, hr, hg, hrest, hfilled, hends, hnil⟩ := exists_front hn hb
  have hboth : Comments (opening ++ run) := (comments_append _ _).mpr ⟨ho, hr⟩
  have hafter : BeginsFilled (rest ++ back) := hfilled.append hback.filled
  have hends' : BeginsUncommented (gap ++ (rest ++ back)) := by
    rw [← List.append_assoc]
    exact hends.append hback.uncommented
  rw [List.append_assoc, List.append_assoc, opensApartTwice_iff hr hg hafter hends',
    opensApart_append hback]
  by_cases hgap : gap = []
  · subst hgap
    obtain rfl := hrest.eq_nil_of_head hfilled hends
    rw [List.append_nil, List.append_nil]
    have hglue : Comments (glue (opening ++ run)) := fun m hm => hboth m ((glue_sublist _).subset hm)
    simp [comments_not_apart hglue]
  · have hrun : run ≠ [] := fun hrun => hgap (hnil hrun).1
    rw [← List.append_assoc, glue_run hboth (by simp [hrun]) hg hfilled hends,
      opensApart_comments hboth hrest hfilled]
    simp [hrun, hgap]

end Marks

namespace Arrange

variable {rules : Rulebook} {t : Text}

theorem rows_sorted_blocks {sh : Sheet} (hsh : (Script.ofText rules t).marks = sh.marks)
    (htail : sh.outline.tail = []) :
    (Block.sort (blocks (Script.ofText rules t))).map (Layout.rows (Script.ofText rules t)) =
      (sh.outline.sorted rules).map Section.rows := by
  have hblocks : blocks (Script.ofText rules t) = sh.outline.blocks rules sh.start :=
    Sheet.blocks_sheet (Script.ofLines_even rules _) sh hsh
  have hpassages := Sheet.sort_passages (Script.ofText rules t) (blocks (Script.ofText rules t))
  rw [hblocks, Outline.blocks_passages rules sh.outline (sh.drop_start hsh), ← hblocks,
    Outline.sort_passages, htail, Outline.tailPassages, if_pos rfl, List.append_nil] at hpassages
  simpa [Passage.ofBlock, Section.passage, Function.comp_def] using
    congrArg (List.map Passage.rows) hpassages

theorem arranged_apart_iff {sh : Sheet} (hatt : ∀ s ∈ sh.outline.sections, s.Attached)
    (htail : sh.outline.tail = []) : OpensApart (sh.arranged rules) ↔
      ∃ rows ∈ ((sh.outline.sorted rules).map Section.rows).head?, OpensApartTwice rows := by
  cases h : sh.outline.sorted rules with
  | nil =>
    have harranged : sh.arranged rules = glue sh.opening := by
      rw [Sheet.arranged, Outline.stack_undeclared (Outline.sorted_eq_nil.mp h), htail,
        List.append_nil]
    have hcomments : Comments (sh.arranged rules) := by
      intro m hm
      rw [harranged] at hm
      exact sh.opening_comments m ((glue_sublist _).subset hm)
    simp [comments_not_apart hcomments]
  | cons first others =>
    have hsolid := Outline.onward_solid rules first others sh.outline.tail
    have hrows : BeginsSolid (first.head :: first.body) := by
      simp [BeginsSolid, Section.head, isSolid_iff]
    rw [Sheet.arranged, Outline.stack_sorted h, ← List.append_assoc, glue_front hsolid,
      opensApart_append hsolid,
      opensApart_glue sh.opening_comments (Sheet.notes_lead hatt h) first.lead_filled hrows]
    simp [Section.rows]

/-- A script about which there is nothing to remark is settled after one pass
exactly if its first block does not lead with two runs of comments that blank
lines follow. -/
theorem settled_after_one_pass_iff (h : (arrange rules t).remarks = []) :
    (arrange rules (arrange rules t).text).text = (arrange rules t).text ↔
      ∀ b ∈ (Block.sort (blocks (Script.ofText rules t))).head?,
        ¬ OpensApartTwice (Layout.rows (Script.ofText rules t) b) := by
  have hnone : ∀ r ∈ (arrange rules t).remarks, r.cause ≠ .unterminated := by simp [h]
  have hterm := terminated_of_remarks hnone
  obtain ⟨sh, hsh⟩ := Sheet.exists_sheet (Script.ofText rules t).marks
  have hatt := attached_of_no_stray hsh.symm (by simp [h])
  have htail := tail_of_no_dangling hsh.symm (by simp [h])
  rw [twice_eq_once_iff hterm hsh.symm hatt, marks_arranged hterm sh hsh.symm,
    arranged_apart_iff hatt htail, ← rows_sorted_blocks hsh.symm htail, List.head?_map]
  simp

def notedVariable : Text := "func b():\n\tpass\n\n# a\nvar x\n".toList

theorem notedVariable_settled : (arrange .default notedVariable).remarks = [] ∧
    (arrange .default (arrange .default notedVariable).text).text =
      (arrange .default notedVariable).text := by
  have hremarks : (arrange .default notedVariable).remarks = [] := by decide +kernel
  have hblocks : blocks (Script.ofText .default notedVariable) =
      [⟨0, 2, .publicFunc⟩, ⟨3, 5, .publicVar⟩] := by decide
  have hsort : Block.sort [⟨0, 2, .publicFunc⟩, ⟨3, 5, .publicVar⟩] =
      [⟨3, 5, .publicVar⟩, ⟨0, 2, .publicFunc⟩] := by
    simp [Block.sort, List.mergeSort, List.MergeSort.Internal.splitInTwo, Block.comesBefore,
      Kind.rank]
  have hrows : Layout.rows (Script.ofText .default notedVariable) ⟨3, 5, .publicVar⟩ =
      [("# a".toList, .comment)] ++ ([] ++ [("var x".toList, .declaration .publicVar)]) := by decide
  have hiff := settled_after_one_pass_iff hremarks
  constructor
  · exact hremarks
  · apply hiff.mpr
    intro b hb
    obtain rfl : ⟨3, 5, .publicVar⟩ = b := by simpa [hblocks, hsort] using hb
    rw [hrows, opensApartTwice_iff (by simp) (by simp) (by simp) (by simp [BeginsUncommented])]
    simp

/-- Two passes and one differ here, and there is nothing to remark. -/
theorem spacedComments_unsettled : (arrange .default spacedComments).remarks = [] ∧
    (arrange .default (arrange .default spacedComments).text).text ≠
      (arrange .default spacedComments).text := by
  have htwice : (arrange .default "# a\n# b\n# c\n\nvar x\n".toList).text =
      "# a\n# b\n# c\nvar x\n".toList := by decide +kernel
  constructor
  · exact spacedComments_remarks
  · rw [spacedComments_once, htwice]
    simp

end Arrange

end ScriptOrder
