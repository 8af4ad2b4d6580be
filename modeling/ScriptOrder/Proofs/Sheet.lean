import ScriptOrder.Arrange
import ScriptOrder.Proofs.Glue
import ScriptOrder.Proofs.ScanOutline

/-!
# Sheets

A sheet is a whole script taken apart: blank lines, the opening comment, and
the outline of the rest. Every list of marks is the sheet of a script, and
the arranged script is written from the passages of the sheet.
-/

set_option autoImplicit false

namespace ScriptOrder
open Marks

def Section.passage (rules : Rulebook) (s : Section) : Passage := ⟨s.rows, s.settled rules⟩

namespace Outline

def tailPassages (tail : List Mark) : List Passage := if tail = [] then [] else [⟨tail, .loose⟩]

def passages (rules : Rulebook) (o : Outline) : List Passage :=
  o.sections.map (Section.passage rules) ++ tailPassages o.tail

theorem mem_tailPassages {tail : List Mark} {p : Passage} (h : p ∈ tailPassages tail) :
    p = ⟨tail, .loose⟩ := by
  rw [tailPassages] at h
  split at h
  · simp at h
  · exact List.mem_singleton.mp h

theorem forall_passages {rules : Rulebook} {o : Outline} {P : Passage → Prop}
    (hs : ∀ s ∈ o.sections, P (s.passage rules)) (ht : P ⟨o.tail, .loose⟩) :
    ∀ p ∈ o.passages rules, P p := by
  intro p hp
  rcases List.mem_append.mp hp with hp | hp
  · obtain ⟨s, hmem, rfl⟩ := List.mem_map.mp hp
    exact hs s hmem
  · rw [mem_tailPassages hp]
    exact ht

theorem tailBlocks_passages {s : Script} {i : Nat} {tail after : List Mark}
    (h : s.marks.drop i = tail ++ after) :
    (tailBlocks i tail).map (Passage.ofBlock s) = tailPassages tail := by
  by_cases ht : tail = []
  · simp [tailBlocks, tailPassages, ht]
  · simp [tailBlocks, tailPassages, ht, Passage.ofBlock, Layout.rows, Script.slice_of_drop h]

theorem blocksOf_passages {s : Script} (rules : Rulebook) {gap tail after : List Mark}
    (sections : List Section) {i : Nat}
    (h : s.marks.drop i = sections.flatMap Section.marks ++ (gap ++ (tail ++ after))) :
    (blocksOf rules gap tail i sections).map (Passage.ofBlock s) =
      sections.map (Section.passage rules) ++ tailPassages tail := by
  induction sections generalizing i with
  | nil =>
    have htail : s.marks.drop (i + gap.length) = tail ++ after := by
      apply Script.drop_append
      simpa using h
    simpa [blocksOf] using tailBlocks_passages htail
  | cons t rest ih =>
    have hrows : s.marks.drop (i + t.gap.length) = t.rows ++
        (rest.flatMap Section.marks ++ (gap ++ (tail ++ after))) := by
      apply Script.drop_append
      simpa [Section.marks] using h
    have hrest : s.marks.drop (i + t.marks.length) =
        rest.flatMap Section.marks ++ (gap ++ (tail ++ after)) := by
      apply Script.drop_append
      simpa using h
    have hstop : i + t.marks.length = i + t.gap.length + t.rows.length := by
      rw [Section.marks, List.length_append, Nat.add_assoc]
    have hslice := Script.slice_of_drop hrows
    rw [← hstop] at hslice
    simp [blocksOf, ih hrest, Passage.ofBlock, Section.blockAt, Layout.rows, hslice,
      Section.passage]

theorem blocks_passages {s : Script} (rules : Rulebook) {i : Nat} (o : Outline)
    (h : s.marks.drop i = o.marks) :
    (o.blocks rules i).map (Passage.ofBlock s) = o.passages rules :=
  blocksOf_passages rules o.sections h

end Outline

structure Sheet where
  before : List Mark
  opening : List Mark
  outline : Outline
  before_blank : Blanks before
  opening_comments : Comments opening
  run_ends : BeginsUncommented outline.marks
  unopened : opening = [] → outline.marks = [] ∨ before = [] ∧
    ∃ gap m rest, outline.marks = gap ++ m :: rest ∧ Blanks gap ∧ m.2.isSolid = true

namespace Sheet

def marks (sh : Sheet) : List Mark := sh.before ++ (sh.opening ++ sh.outline.marks)

def start (sh : Sheet) : Nat := sh.before.length + sh.opening.length

def span (sh : Sheet) : Option (Nat × Nat) :=
  if sh.opening = [] then none else some (sh.before.length, sh.start)

theorem exists_sheet (ms : List Mark) : ∃ sh : Sheet, sh.marks = ms := by
  obtain ⟨before, filled, rfl, hb, hf⟩ := exists_blanks ms
  obtain ⟨run, rest, rfl, hr, hrest⟩ := exists_comments filled
  by_cases hrun : run = []
  · subst hrun
    rw [List.nil_append] at hf ⊢
    cases rest with
    | nil =>
      obtain ⟨o, ho⟩ := Outline.exists_outline []
      exact ⟨⟨before, [], o, hb, comments_nil, by simp [BeginsUncommented, ho],
        fun _ => Or.inl ho⟩, by simp [marks, ho]⟩
    | cons m rest =>
      have hm : m.2.isSolid = true :=
        (isSolid_iff m.2).mpr ⟨hrest m (by simp), (beginsFilled_cons m rest).mp hf⟩
      obtain ⟨o, ho⟩ := Outline.exists_outline (before ++ m :: rest)
      refine ⟨⟨[], [], o, blanks_nil, comments_nil, ?_, ?_⟩, by simp [marks, ho]⟩
      · rw [ho]
        exact hb.uncommented.append hrest
      · exact fun _ => Or.inr ⟨rfl, before, m, rest, ho, hb, hm⟩
  · obtain ⟨o, ho⟩ := Outline.exists_outline rest
    exact ⟨⟨before, run, o, hb, hr, by rwa [ho], fun h => absurd h hrun⟩,
      by simp [marks, ho]⟩

theorem find_opened (before opening rest : List Mark) (hb : Blanks before)
    (ho : Comments opening) (hne : opening ≠ [])
    (hrest : BeginsUncommented rest) :
    Opening.find ((before ++ (opening ++ rest)).map Prod.snd) =
      (some (before.length, before.length + opening.length),
        before.length + opening.length) := by
  obtain ⟨m, run, rfl⟩ := List.exists_cons_of_ne_nil hne
  have hm : m.2 = .comment := ho m (by simp)
  have hblank : ((before ++ (m :: run ++ rest)).map Prod.snd).takeWhile Reading.isBlank =
      before.map Prod.snd := by
    rw [List.takeWhile_map, Function.comp_def, takeWhile_run hb.all (by simp [hm])]
  have hrun : (((before ++ (m :: run ++ rest)).map Prod.snd).drop before.length).takeWhile
      Reading.isComment = (m :: run).map Prod.snd := by
    rw [← List.map_drop, List.drop_left, List.takeWhile_map, Function.comp_def,
      takeWhile_run ho.all hrest.stops]
  have hget : ((before ++ (m :: run ++ rest)).map Prod.snd)[before.length]? = some .comment := by
    simp [hm]
  have hend : Opening.runEnd ((before ++ (m :: run ++ rest)).map Prod.snd) before.length =
      before.length + (m :: run).length := by
    rw [Opening.runEnd, hrun, List.length_map]
  rw [Opening.find, hblank, List.length_map, hget, ← hend]
  rfl

theorem find_solid (gap : List Mark) (m : Mark) (rest : List Mark) (hg : Blanks gap)
    (hm : m.2.isSolid = true) : Opening.find ((gap ++ m :: rest).map Prod.snd) = (none, 0) := by
  obtain ⟨hc, hb⟩ := (isSolid_iff m.2).mp hm
  have hblank : ((gap ++ m :: rest).map Prod.snd).takeWhile Reading.isBlank = gap.map Prod.snd := by
    rw [List.takeWhile_map, Function.comp_def, takeWhile_run hg.all (by simpa using hb)]
  have hget : ((gap ++ m :: rest).map Prod.snd)[gap.length]? = some m.2 := by simp
  rw [Opening.find, hblank, List.length_map, hget]
  simp [hc]

theorem find_blank (before : List Mark) (hb : Blanks before) :
    Opening.find (before.map Prod.snd) = (none, before.length) := by
  have hblank : (before.map Prod.snd).takeWhile Reading.isBlank = before.map Prod.snd := by
    have hall : (before ++ []).takeWhile (fun m : Mark => m.2.isBlank) = before :=
      takeWhile_run hb.all (by simp)
    rw [List.append_nil] at hall
    rw [List.takeWhile_map, Function.comp_def, hall]
  rw [Opening.find, hblank]
  simp

theorem find_sheet (sh : Sheet) : Opening.find (sh.marks.map Prod.snd) = (sh.span, sh.start) := by
  obtain ⟨before, opening, o, hb, hc, hends, hun⟩ := sh
  by_cases ho : opening = []
  · rcases hun ho with hnil | ⟨rfl, gap, m, rest, hrest, hg, hm⟩
    · simpa [marks, span, start, ho, hnil] using find_blank before hb
    · simpa [marks, span, start, ho, hrest] using find_solid gap m rest hg hm
  · simpa [marks, span, start, ho] using find_opened before opening o.marks hb hc ho hends

def arranged (rules : Rulebook) (sh : Sheet) : List Mark :=
  glue (sh.opening ++ Passage.stack none (Passage.sort (sh.outline.passages rules)))

variable {s : Script}

theorem find_readings (hs : s.Even) (sh : Sheet) (h : s.marks = sh.marks) :
    Opening.find s.readings = (sh.span, sh.start) := by
  rw [← Script.marks_readings hs, h, find_sheet]

theorem drop_start (sh : Sheet) (h : s.marks = sh.marks) :
    s.marks.drop sh.start = sh.outline.marks := by
  rw [h, marks, ← List.append_assoc, start, ← List.length_append, List.drop_left]

theorem openingRows_sheet (sh : Sheet) (h : s.marks = sh.marks) :
    Layout.openingRows s sh.span = sh.opening.map some := by
  by_cases ho : sh.opening = []
  · simp [span, ho, Layout.openingRows]
  · have hdrop : s.marks.drop sh.before.length = sh.opening ++ sh.outline.marks := by
      rw [h, marks, List.drop_left]
    simp [span, ho, Layout.openingRows, start, Script.slice_of_drop hdrop]

theorem blocks_sheet (hs : s.Even) (sh : Sheet) (h : s.marks = sh.marks) :
    Arrange.blocks s = sh.outline.blocks s.rules sh.start := by
  rw [Arrange.blocks, Arrange.start, find_readings hs sh h]
  exact Scan.blocks_outline hs sh.outline (drop_start sh h)

theorem remarks_sheet (hs : s.Even) (sh : Sheet) (h : s.marks = sh.marks) :
    Scan.remarks s (Arrange.start s) = sh.outline.remarks sh.start := by
  rw [Arrange.start, find_readings hs sh h]
  exact Scan.remarks_outline hs sh.outline (drop_start sh h)

theorem sort_passages (s : Script) (bs : List Block) :
    (Block.sort bs).map (Passage.ofBlock s) = Passage.sort (bs.map (Passage.ofBlock s)) :=
  List.map_mergeSort fun _ _ _ _ => rfl

theorem layout_sheet (hs : s.Even) (sh : Sheet) (h : s.marks = sh.marks) :
    (Layout.layout s (Arrange.opening s) (Block.sort (Arrange.blocks s))).map Layout.mark =
      sh.arranged s.rules := by
  rw [Arrange.opening, find_readings hs sh h, Layout.layout, glue_marks, List.map_append,
    openingRows_sheet sh h, Layout.map_mark_some, Layout.blockRows_marks, sort_passages,
    blocks_sheet hs sh h, Outline.blocks_passages s.rules sh.outline (drop_start sh h)]
  rfl

theorem text_sheet (hs : s.Even) (sh : Sheet) (h : s.marks = sh.marks) :
    Arrange.text s = Lines.unlines ((sh.arranged s.rules).map Prod.fst) := by
  have hline : Layout.rowLine = Prod.fst ∘ Layout.mark := funext Layout.rowLine_mark
  rw [Arrange.text, Layout.render, hline, ← List.map_map, layout_sheet hs sh h]

end Sheet

namespace Arrange

theorem text_arranged {rules : Rulebook} {t : Text} {sh : Sheet}
    (hsh : (Script.ofText rules t).marks = sh.marks) :
    (arrange rules t).text = Lines.unlines ((sh.arranged rules).map Prod.fst) :=
  Sheet.text_sheet (Script.ofLines_even rules _) sh hsh

theorem remarks_perm (s : Script) :
    (remarks s).Perm (Reading.remarks s.lines ++ Scan.remarks s (start s)) :=
  List.mergeSort_perm _ _

theorem mem_remarks (s : Script) (r : Remark) :
    r ∈ remarks s ↔ r ∈ Reading.remarks s.lines ∨ r ∈ Scan.remarks s (start s) := by
  rw [(remarks_perm s).mem_iff, List.mem_append]

end Arrange

end ScriptOrder
