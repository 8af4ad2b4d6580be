import Mathlib.Data.List.Basic
import ScriptOrder.Proofs.SectionOrder

/-!
# The sheet of an arranged script

If nothing strays in a script, the arranged script is a front of comments and
blank lines and then what does not change any more. Its own sheet has the
sections in the order in which they stand, and arranging it again glues the
front twice: once when the opening comment is taken out and once when it is
put back.
-/

set_option autoImplicit false

namespace ScriptOrder
open Marks

namespace Passage

theorem isTall_notes {lead : List Mark} (h : Notes lead) (ms : List Mark) :
    Layout.isTall (lead ++ ms) = Layout.isTall ms := by
  have hnone : lead.countP (fun m => m.2.isSolid) = 0 := by
    apply List.countP_eq_zero.mpr
    intro m hm
    rcases h m hm with hc | hb
    · simp [hc, isSolid_iff]
    · simp [hb, isSolid_iff]
  rw [Layout.isTall, Layout.isTall, List.countP_append, hnone, Nat.zero_add]

theorem sort_of_kinds (ps : List Passage) {qs : List Passage} (h : qs.map kind = (sort ps).map kind) :
    sort qs = qs := by
  have hps : ((sort ps).map kind).Pairwise fun k l => k.rank ≤ l.rank :=
    List.pairwise_map.mpr (StableSort.sorted_pairwise _ ps)
  rw [← h, List.pairwise_map] at hps
  exact StableSort.sorted_of_pairwise _ hps

theorem exists_stacked (rules : Rulebook) (p : Passage) (tail : List Mark) {sections : List Section}
    (hs : ∀ s ∈ sections, s.Attached) : ∃ (stacked : List Section) (gap : List Mark),
      stack (some p) (sections.map (Section.passage rules) ++ Outline.tailPassages tail) =
        stacked.flatMap Section.marks ++ (gap ++ tail) ∧
      stacked.map (Section.passage rules) = sections.map (Section.passage rules) ∧
      (∀ s ∈ stacked, s.Attached) ∧ Blanks gap := by
  induction sections generalizing p with
  | nil =>
    by_cases ht : tail = []
    · exact ⟨[], [], by simp [Outline.tailPassages, stack, ht], by simp⟩
    · refine ⟨[], gap (some p) ⟨tail, .loose⟩, ?_, rfl, by simp, gap_blank _ _⟩
      simp [Outline.tailPassages, stack, ht]
  | cons s ss ih =>
    obtain ⟨stacked, g, heq, hpassages, hatt, hg⟩ :=
      ih (s.passage rules) fun t ht => hs t (by simp [ht])
    let spaced : Section :=
      { s with gap := gap (some p) (s.passage rules), gap_blank := gap_blank _ _ }
    have hspaced : spaced.Attached := hs s (by simp)
    have hpassage : spaced.passage rules = s.passage rules := rfl
    refine ⟨spaced :: stacked, g, ?_, ?_, ?_, hg⟩
    · rw [List.map_cons, List.cons_append, stack, heq]
      simp [Section.marks, spaced, Section.passage, Section.rows, Section.head]
    · rw [List.map_cons, hpassages, hpassage, List.map_cons]
    · simpa [hspaced] using hatt

end Passage

namespace Kind

theorem rank_le_loose (k : Kind) : k.rank ≤ loose.rank := by cases k <;> decide

end Kind

namespace Outline

variable {rules : Rulebook}

def sorted (rules : Rulebook) (o : Outline) : List Section :=
  StableSort.sorted (fun s => (s.settled rules).rank) o.sections

theorem sorted_eq_nil {o : Outline} : o.sorted rules = [] ↔ o.sections = [] := by
  have hperm := StableSort.sorted_perm (fun s => (s.settled rules).rank) o.sections
  constructor
  · intro h
    rw [← sorted, h] at hperm
    exact hperm.nil_eq.symm
  · intro h
    rw [h] at hperm
    rw [sorted, h]
    exact hperm.eq_nil

theorem sorted_attached {o : Outline} (h : ∀ s ∈ o.sections, s.Attached) :
    ∀ s ∈ o.sorted rules, s.Attached :=
  fun s hs => h s ((StableSort.mem_sorted _).mp hs)

theorem sort_passages (o : Outline) : Passage.sort (o.passages rules) =
    (o.sorted rules).map (Section.passage rules) ++ tailPassages o.tail := by
  have hsections : Passage.sort (o.sections.map (Section.passage rules)) =
      (o.sorted rules).map (Section.passage rules) := by
    symm
    exact List.map_mergeSort fun _ _ _ _ => rfl
  rw [passages, tailPassages, ← hsections]
  split
  · simp
  · apply StableSort.sorted_concat
    intro p _
    exact p.kind.rank_le_loose

def onward (rules : Rulebook) (first : Section) (others : List Section) (tail : List Mark) :
    List Mark :=
  first.head :: (first.body ++ Passage.stack (some (first.passage rules))
    (others.map (Section.passage rules) ++ tailPassages tail))

theorem onward_solid (rules : Rulebook) (first : Section) (others : List Section) (tail : List Mark) :
    BeginsSolid (onward rules first others tail) := by
  simp [BeginsSolid, onward, Section.head, isSolid_iff]

theorem stack_undeclared {o : Outline} (h : o.sections = []) :
    Passage.stack none (Passage.sort (o.passages rules)) = o.tail := by
  rw [sort_passages, sorted, h, tailPassages]
  by_cases ht : o.tail = []
  · simp [StableSort.sorted, Passage.stack, ht]
  · simp [StableSort.sorted, Passage.stack, Passage.gap, ht]

variable {o : Outline} {first : Section} {others : List Section}

theorem stack_sorted (h : o.sorted rules = first :: others) :
    Passage.stack none (Passage.sort (o.passages rules)) =
      first.lead ++ onward rules first others o.tail := by
  rw [sort_passages, h]
  simp [Passage.stack, Passage.gap, Section.passage, Section.rows, onward]

/-- Behind a gap the marks have an outline that is laid out as they stand. -/
def Stands (rules : Rulebook) (gap ms : List Mark) : Prop :=
  ∃ o : Outline, o.marks = gap ++ ms ∧ Passage.stack none (Passage.sort (o.passages rules)) = ms

theorem stands_undeclared {gap ms : List Mark} (hg : Blanks gap) (hu : Undeclared ms)
    (hb : BeginsFilled ms) (he : EndsFilled ms) : Stands rules gap ms := by
  let o : Outline := ⟨[], gap, ms, [], by simp, hg, blanks_nil, hu, hb, he, by simp⟩
  exact ⟨o, by simp [marks, o], stack_undeclared rfl⟩

theorem stands_onward (hatt : ∀ s ∈ o.sections, s.Attached) (h : o.sorted rules = first :: others)
    {gap lead : List Mark} (hgap : Blanks gap) (hnotes : Notes lead) (hfilled : BeginsFilled lead) :
    Stands rules gap (lead ++ onward rules first others o.tail) := by
  have hall : ∀ s ∈ first :: others, s.Attached := h ▸ sorted_attached hatt
  have hlead : Notes first.lead := hall first (by simp)
  have hothers : ∀ s ∈ others, s.Attached := fun s hs => hall s (List.mem_cons_of_mem first hs)
  have hsections : o.sections ≠ [] := by
    intro hnone
    simp [sorted_eq_nil.mpr hnone] at h
  obtain ⟨stacked, g, hstack, hpassages, hstacked, hg⟩ :=
    Passage.exists_stacked rules (first.passage rules) o.tail hothers
  let led : Section :=
    { first with gap := gap, lead := lead, gap_blank := hgap,
                 lead_undeclared := hnotes.undeclared, lead_filled := hfilled }
  let o' : Outline :=
    ⟨led :: stacked, g, o.tail, [], hstacked, hg, blanks_nil, o.tail_undeclared, o.tail_begins,
      o.tail_ends, fun _ => o.tail_notes hsections⟩
  have hpass : o'.passages rules =
      led.passage rules :: (others.map (Section.passage rules) ++ tailPassages o.tail) := by
    simp [o', passages, hpassages]
  have hsort : Passage.sort (o'.passages rules) = o'.passages rules := by
    apply Passage.sort_of_kinds (o.passages rules)
    rw [hpass, sort_passages, h]
    rfl
  have htall : Layout.isTall (led.passage rules).rows = Layout.isTall (first.passage rules).rows :=
    (Passage.isTall_notes hnotes _).trans (Passage.isTall_notes hlead _).symm
  refine ⟨o', ?_, ?_⟩
  · simp [marks, o', Section.marks, Section.rows, led, onward, hstack, Section.head]
  · have hrest := Passage.stack_congr (p := led.passage rules) (q := first.passage rules) rfl htall
    rw [hsort, hpass, Passage.stack, hrest]
    simp [Passage.gap, Section.passage, Section.rows, Section.head, led, onward]

end Outline

namespace Sheet

variable {rules : Rulebook}

/-- If behind the opening run of a front everything stands, arranging glues the
front and changes nothing else. -/
theorem exists_again {front back : List Mark} (hn : Notes front) (hb : BeginsFilled front)
    (hback : BeginsSolid back)
    (hstands : ∀ run gap lead, front = run ++ (gap ++ lead) → Blanks gap → Notes lead →
      BeginsFilled lead → Outline.Stands rules gap (lead ++ back)) :
    ∃ again : Sheet, again.marks = front ++ back ∧
      again.arranged rules = glue (glue front) ++ back := by
  obtain ⟨run, gap, lead, hsplit, hglue, hrun, hgap, hnotes, hlead, hends, hnil⟩ := exists_front hn hb
  obtain ⟨o, ho, hstack⟩ := hstands run gap lead hsplit hgap hnotes hlead
  have hcomment : BeginsUncommented o.marks := by
    rw [ho, ← List.append_assoc]
    exact hends.append hback.uncommented
  have hun (hr : run = []) : o.marks = [] ∨ ([] : List Mark) = [] ∧
      ∃ gap m rest, o.marks = gap ++ m :: rest ∧ Blanks gap ∧ m.2.isSolid = true := by
    rw [ho, (hnil hr).1, (hnil hr).2]
    cases hbegin : back with
    | nil => exact Or.inl rfl
    | cons m rest => exact Or.inr ⟨rfl, [], m, rest, rfl, blanks_nil, hback m (by simp [hbegin])⟩
  let again : Sheet := ⟨[], run, o, blanks_nil, hrun, hcomment, hun⟩
  refine ⟨again, ?_, ?_⟩
  · simp [again, marks, ho, hsplit]
  · rw [arranged, hstack, ← List.append_assoc, ← hglue]
    exact glue_front hback

section Declared

variable {sh : Sheet} {first : Section} {others : List Section}
  (hatt : ∀ s ∈ sh.outline.sections, s.Attached) (h : sh.outline.sorted rules = first :: others)
include hatt h

theorem notes_lead : Notes first.lead := by
  have hall : ∀ s ∈ first :: others, s.Attached := h ▸ Outline.sorted_attached hatt
  exact hall first (by simp)

theorem notes_front : Notes (glue (sh.opening ++ first.lead)) := by
  apply glue_notes
  exact (notes_append _ _).mpr ⟨sh.opening_comments.notes, notes_lead hatt h⟩

theorem exists_again_declared : ∃ (again : Sheet) (back : List Mark),
    sh.arranged rules = glue (sh.opening ++ first.lead) ++ back ∧
    again.marks = sh.arranged rules ∧
    again.arranged rules = glue (glue (glue (sh.opening ++ first.lead))) ++ back ∧
    BeginsSolid back := by
  have hsolid := Outline.onward_solid rules first others sh.outline.tail
  have harranged : sh.arranged rules =
      glue (sh.opening ++ first.lead) ++ Outline.onward rules first others sh.outline.tail := by
    rw [← glue_front hsolid, arranged, Outline.stack_sorted h, List.append_assoc]
  have hbegins : BeginsFilled (sh.opening ++ first.lead) :=
    sh.opening_comments.beginsFilled.append first.lead_filled
  obtain ⟨again, hmarks, hagain⟩ := exists_again (notes_front hatt h) (glue_begins hbegins) hsolid
    fun _ _ _ _ hgap hl hf => Outline.stands_onward hatt h hgap hl hf
  exact ⟨again, _, harranged, by rw [hmarks, harranged], hagain, hsolid⟩

end Declared

section Undeclared

variable (sh : Sheet)

theorem opening_tail_undeclared : Undeclared (sh.opening ++ sh.outline.tail) :=
  (undeclared_append _ _).mpr ⟨sh.opening_comments.notes.undeclared, sh.outline.tail_undeclared⟩

theorem opening_tail_begins : BeginsFilled (sh.opening ++ sh.outline.tail) :=
  sh.opening_comments.beginsFilled.append sh.outline.tail_begins

theorem opening_tail_ends : EndsFilled (sh.opening ++ sh.outline.tail) := by
  by_cases ht : sh.outline.tail = []
  · rw [ht, List.append_nil]
    exact sh.opening_comments.endsFilled
  · exact (endsFilled_append ht).mpr sh.outline.tail_ends

theorem exists_again_undeclared (h : sh.outline.sections = []) :
    ∃ (again : Sheet) (front back : List Mark), sh.arranged rules = front ++ back ∧
      again.marks = sh.arranged rules ∧ again.arranged rules = glue (glue front) ++ back ∧
      Notes front ∧ BeginsSolid back := by
  obtain ⟨front, back, hsplit, hn, hsolid⟩ := exists_notes (sh.opening ++ sh.outline.tail)
  have hglue : glue (sh.opening ++ sh.outline.tail) = glue front ++ back := by
    rw [hsplit, glue_front hsolid]
  have harranged : sh.arranged rules = glue front ++ back := by
    rw [arranged, Outline.stack_undeclared h, hglue]
  have hbegins : BeginsFilled front := by
    have hall := sh.opening_tail_begins
    rw [hsplit] at hall
    exact hall.of_append
  have hends : EndsFilled (glue front ++ back) := hglue ▸ glue_ends sh.opening_tail_ends
  have hu : Undeclared (glue front ++ back) := by
    rw [← hglue]
    intro m hm
    exact sh.opening_tail_undeclared m ((glue_sublist _).subset hm)
  have hstands (run gap lead : List Mark) (hfront : glue front = run ++ (gap ++ lead))
      (hgap : Blanks gap) (_ : Notes lead) (hlead : BeginsFilled lead) :
      Outline.Stands rules gap (lead ++ back) := by
    have hbound : glue front ++ back = (run ++ gap) ++ (lead ++ back) := by simp [hfront]
    rw [hbound] at hends hu
    exact Outline.stands_undeclared hgap ((undeclared_append _ _).mp hu).2
      (hlead.append hsolid.filled) hends.of_append
  obtain ⟨again, hmarks, hagain⟩ := exists_again (glue_notes hn) (glue_begins hbegins) hsolid hstands
  exact ⟨again, glue front, back, harranged, by rw [hmarks, harranged], hagain, glue_notes hn, hsolid⟩

end Undeclared

theorem exists_again_sheet (rules : Rulebook) (sh : Sheet)
    (hatt : ∀ s ∈ sh.outline.sections, s.Attached) :
    ∃ (again : Sheet) (front back : List Mark), sh.arranged rules = front ++ back ∧
      again.marks = sh.arranged rules ∧ again.arranged rules = glue (glue front) ++ back ∧
      Notes front ∧ BeginsSolid back := by
  cases h : sh.outline.sorted rules with
  | nil => exact exists_again_undeclared sh (Outline.sorted_eq_nil.mp h)
  | cons first others =>
    obtain ⟨again, back, harranged, hmarks, hagain, hsolid⟩ := exists_again_declared hatt h
    exact ⟨again, _, back, harranged, hmarks, hagain, notes_front hatt h, hsolid⟩

end Sheet

end ScriptOrder
