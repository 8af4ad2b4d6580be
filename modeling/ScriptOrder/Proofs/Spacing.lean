import Mathlib.Data.List.Basic
import ScriptOrder.Proofs.Exchange
import ScriptOrder.Proofs.SettledSheet

/-!
# The spacing of an arranged script

The arranged script is the opening comment and then the blocks, whole and in
the order of their sections, with one empty line where two neighbours differ
in kind or one of them has a body. Blank lines are taken out in one place only:
the first block may lose those that follow the comments it begins with.
-/

set_option autoImplicit false

namespace ScriptOrder
open Marks

namespace Marks

/-- The comments that open the marks, blank lines before them apart. -/
def openingRun (ms : List Mark) : List Mark :=
  (ms.dropWhile fun m => m.2.isBlank).takeWhile fun m => m.2.isComment

theorem openingRun_append {before run rest : List Mark} (hb : Blanks before) (hr : Comments run)
    (hrest : BeginsUncommented rest) (hfilled : BeginsFilled (run ++ rest)) :
    openingRun (before ++ (run ++ rest)) = run := by
  rw [openingRun, dropWhile_run hb.all hfilled.stops, takeWhile_run hr.all hrest.stops]

/-- The second list is the first without the blank lines that follow the
comments it begins with. -/
def Tightens (ms ns : List Mark) : Prop := ∃ run gap rest, ms = run ++ (gap ++ rest) ∧
  ns = run ++ rest ∧ Comments run ∧ Blanks gap ∧ BeginsFilled rest ∧
  BeginsUncommented (gap ++ rest)

theorem Tightens.unique {ms ns ns' : List Mark} (h : Tightens ms ns) (h' : Tightens ms ns') :
    ns = ns' := by
  obtain ⟨run, gap, rest, rfl, rfl, hr, hg, hrest, hends⟩ := h
  obtain ⟨run', gap', rest', heq, rfl, hr', hg', hrest', hends'⟩ := h'
  obtain ⟨rfl, hafter⟩ := run_unique hr.all hr'.all hends.stops hends'.stops heq
  obtain ⟨rfl, rfl⟩ := run_unique hg.all hg'.all hrest.stops hrest'.stops hafter
  rfl

theorem exists_tightened {opening ms ns : List Mark} (ho : Comments opening)
    (hb : BeginsFilled ms) (he : EndsFilled ms) (hlast : Comments ms → ns = []) :
    ∃ tight, Tightens ms tight ∧ glue (opening ++ (ms ++ ns)) = opening ++ (tight ++ ns) := by
  obtain ⟨run, gap, rest, rfl, hr, hg, hrest, hends, -⟩ := exists_glue ms
  refine ⟨run ++ rest, ⟨run, gap, rest, rfl, rfl, hr, hg, hrest, hends⟩, ?_⟩
  have hboth : Comments (opening ++ run) := (comments_append _ _).mpr ⟨ho, hr⟩
  have hgap (hnil : gap = [] ∧ rest = []) : ns = [] := hlast (by simpa [hnil] using hr)
  have hafter : BeginsFilled (rest ++ ns) ∧ BeginsUncommented (gap ++ (rest ++ ns)) := by
    cases rest with
    | nil =>
      have hnone : gap = [] := by
        by_contra hne
        obtain ⟨init, m, rfl⟩ := (List.eq_nil_or_concat gap).resolve_left hne
        exact he m (by simp) (hg m (by simp))
      simp [hnone, hgap, BeginsUncommented]
    | cons m rest =>
      refine ⟨hrest, ?_⟩
      rw [← List.append_assoc]
      exact (beginsUncommented_append (by simp)).mpr hends
  by_cases hrun : opening ++ run = []
  · obtain ⟨rfl, rfl⟩ := List.append_eq_nil_iff.mp hrun
    have hnone : gap = [] := by
      cases gap with
      | nil => rfl
      | cons m gap => exact absurd (hg m (by simp)) (by simpa using hb)
    subst hnone
    simpa using glue_unopened hafter.2
  · have hglue := glue_run hboth hrun hg hafter.1 hafter.2
    simpa using hglue

end Marks

namespace Script

variable {s : Script}

theorem rows_lines (hs : s.Even) (b : Block) : (Layout.rows s b).map Prod.fst = b.within s.lines := by
  have hlen : s.lines.length = s.readings.length := hs
  rw [Layout.rows, slice, List.map_fst_zip (by simp [hlen])]
  rfl

theorem rows_readings (hs : s.Even) (b : Block) :
    (Layout.rows s b).map Prod.snd = b.within s.readings := by
  have hlen : s.lines.length = s.readings.length := hs
  rw [Layout.rows, slice, List.map_snd_zip (by simp [hlen])]
  rfl

def height (s : Script) (b : Block) : Nat :=
  (b.within s.readings).countP Reading.isSolid

def Apart (s : Script) (a b : Block) : Prop := a.kind ≠ b.kind ∨ 2 ≤ s.height a ∨ 2 ≤ s.height b

instance (s : Script) (a b : Block) : Decidable (s.Apart a b) :=
  inferInstanceAs (Decidable (a.kind ≠ b.kind ∨ 2 ≤ s.height a ∨ 2 ≤ s.height b))

def spaced (s : Script) : Block → List Block → List Line
  | _, [] => []
  | a, b :: bs => (if s.Apart a b then [[]] else []) ++ b.within s.lines ++ s.spaced b bs

theorem isTall_rows (hs : s.Even) (b : Block) :
    Layout.isTall (Layout.rows s b) = decide (2 ≤ s.height b) := by
  rw [Layout.isTall, height, ← rows_readings hs, List.countP_map]
  rfl

theorem apart_iff (hs : s.Even) (a b : Block) :
    Passage.apart (.ofBlock s a) (.ofBlock s b) = decide (s.Apart a b) := by
  rw [Passage.apart, Passage.ofBlock, Passage.ofBlock, isTall_rows hs, isTall_rows hs,
    Bool.eq_iff_iff, decide_eq_true_eq]
  simp [Apart, or_assoc]

theorem stack_spaced (hs : s.Even) (a : Block) (bs : List Block) :
    (Passage.stack (some (.ofBlock s a)) (bs.map (Passage.ofBlock s))).map Prod.fst =
      s.spaced a bs := by
  induction bs generalizing a with
  | nil => rfl
  | cons b bs ih =>
    have hgap : (Passage.gap (some (.ofBlock s a)) (.ofBlock s b)).map Prod.fst =
        if s.Apart a b then [[]] else [] := by
      rw [Passage.gap, apart_iff hs]
      by_cases h : s.Apart a b <;> simp [h, Passage.separator]
    rw [List.map_cons, Passage.stack, List.map_append, List.map_append, ih, hgap, spaced,
      ← rows_lines hs]
    rfl

end Script

namespace Outline

variable {rules : Rulebook}

theorem passages_filled (o : Outline) :
    ∀ p ∈ o.passages rules, p.rows ≠ [] ∧ BeginsFilled p.rows ∧ EndsFilled p.rows := by
  intro p hp
  rcases List.mem_append.mp hp with hp | hp
  · obtain ⟨t, -, rfl⟩ := List.mem_map.mp hp
    exact ⟨t.rows_ne_nil, t.rows_filled, t.rows_solid.endsFilled⟩
  · rw [tailPassages] at hp
    split at hp
    · simp at hp
    · obtain rfl := List.mem_singleton.mp hp
      exact ⟨‹_›, o.tail_begins, o.tail_ends⟩

theorem comments_last (o : Outline) {p : Passage} {ps : List Passage}
    (h : Passage.sort (o.passages rules) = p :: ps) (hc : Comments p.rows) : ps = [] := by
  rw [sort_passages] at h
  cases hsorted : o.sorted rules with
  | nil =>
    rw [hsorted, List.map_nil, List.nil_append, tailPassages] at h
    split at h
    · simp at h
    · exact (List.cons.inj h).2.symm
  | cons first others =>
    rw [hsorted, List.map_cons, List.cons_append] at h
    obtain ⟨rfl, -⟩ := List.cons.inj h
    have hhead := hc first.head (by simp [Section.passage, Section.rows])
    simp [Section.head] at hhead

end Outline

namespace Passage

theorem stack_begins {ps : List Passage} (h : ∀ p ∈ ps, p.rows ≠ [] ∧ BeginsFilled p.rows) :
    BeginsFilled (stack none ps) := by
  cases ps with
  | nil => exact beginsFilled_nil
  | cons p ps =>
    obtain ⟨hne, hb⟩ := h p (by simp)
    rw [stack, gap, List.nil_append]
    exact (beginsFilled_append hne).mpr hb

theorem stack_ends {ps : List Passage} (h : ∀ p ∈ ps, p.rows ≠ [] ∧ EndsFilled p.rows)
    (previous : Option Passage) : EndsFilled (stack previous ps) := by
  induction ps generalizing previous with
  | nil => exact endsFilled_nil
  | cons p ps ih =>
    obtain ⟨hne, he⟩ := h p (by simp)
    have hrest := ih (fun q hq => h q (by simp [hq])) (some p)
    by_cases hnil : stack (some p) ps = []
    · rw [stack, hnil, List.append_nil]
      exact (endsFilled_append hne).mpr he
    · exact (endsFilled_append hnil).mpr hrest

end Passage

namespace Sheet

variable {rules : Rulebook}

theorem openingRun_marks (sh : Sheet) : openingRun sh.marks = sh.opening := by
  by_cases ho : sh.opening = []
  · rcases sh.unopened ho with hnil | ⟨hbefore, gap, m, rest, hrest, hg, hm⟩
    · have hrun : openingRun (sh.before ++ ([] ++ [])) = [] :=
        openingRun_append sh.before_blank comments_nil (by simp [BeginsUncommented]) (by simp)
      simpa [marks, ho, hnil] using hrun
    · obtain ⟨hc, hb⟩ := (isSolid_iff m.2).mp hm
      have hrun : openingRun (gap ++ ([] ++ m :: rest)) = [] :=
        openingRun_append hg comments_nil (by simpa [BeginsUncommented] using hc)
          (by simpa using hb)
      simpa [marks, ho, hbefore, hrest] using hrun
  · exact openingRun_append sh.before_blank sh.opening_comments sh.run_ends
      ((beginsFilled_append ho).mpr sh.opening_comments.beginsFilled)

theorem sorted_filled (sh : Sheet) : ∀ p ∈ Passage.sort (sh.outline.passages rules),
    p.rows ≠ [] ∧ BeginsFilled p.rows ∧ EndsFilled p.rows := fun p hp =>
  sh.outline.passages_filled p ((StableSort.mem_sorted _).mp hp)

theorem arranged_begins (sh : Sheet) : BeginsFilled (sh.arranged rules) := by
  apply glue_begins
  apply sh.opening_comments.beginsFilled.append
  apply Passage.stack_begins
  intro p hp
  exact ⟨(sh.sorted_filled p hp).1, (sh.sorted_filled p hp).2.1⟩

theorem arranged_ends (sh : Sheet) : EndsFilled (sh.arranged rules) := by
  apply glue_ends
  have hstack : EndsFilled (Passage.stack none (Passage.sort (sh.outline.passages rules))) := by
    apply Passage.stack_ends
    intro p hp
    exact ⟨(sh.sorted_filled p hp).1, (sh.sorted_filled p hp).2.2⟩
  by_cases hnil : Passage.stack none (Passage.sort (sh.outline.passages rules)) = []
  · rw [hnil, List.append_nil]
    exact sh.opening_comments.endsFilled
  · exact (endsFilled_append hnil).mpr hstack

theorem arranged_eq_nil_iff (sh : Sheet) : sh.arranged rules = [] ↔ Blanks sh.marks := by
  have hperm := sh.filled_arranged rules
  constructor
  · intro h
    rw [h] at hperm
    have hnone : filled sh.marks = [] := hperm.nil_eq.symm
    simpa [filled, Blanks] using hnone
  · intro h
    rw [filled_blanks h] at hperm
    have hnone : filled (sh.arranged rules) = [] := hperm.eq_nil
    cases harranged : sh.arranged rules with
    | nil => rfl
    | cons m ms =>
      have hbegins : BeginsFilled (sh.arranged rules) := sh.arranged_begins
      rw [harranged] at hbegins hnone
      simp [filled, (beginsFilled_cons m ms).mp hbegins] at hnone

end Sheet

namespace Quotes

theorem openIn_tripled_blanks (line : Line) (h : isBlankLine line = true) :
    openIn .tripled line = true := by
  induction line with
  | nil => rfl
  | cons c line ih =>
    rw [isBlankLine, List.all_cons, Bool.and_eq_true] at h
    have hquote : c ≠ '"' := by
      rintro rfl
      exact absurd h.1 (by decide)
    rw [openIn]
    · exact ih h.2
    · rintro _ rfl
      exact absurd rfl hquote

end Quotes

namespace Reading

variable {rules : Rulebook} {e : Enclosure} {line : Line}

theorem blank_of_after (h : isBlankLine line = true) (he : e.after line = .outside) :
    inside rules line e = .blank := by
  have hopen : Quotes.leavesOpen true line = true := Quotes.openIn_tripled_blanks line h
  cases e with
  | outside => simp [inside, ofLine, h]
  | inComment => simp [after_inComment, hopen] at he
  | inLiteral => simp [after_inLiteral, hopen] at he

end Reading

namespace Marks

variable {rules : Rulebook} {ms : List Mark}

theorem Closed.head_ink (hc : Closed rules ms) (hb : BeginsFilled ms) :
    ∀ m ∈ ms.head?, isBlankLine m.1 = false := by
  intro m hm
  obtain ⟨ns, rfl⟩ := List.head?_eq_some_iff.mp hm
  by_contra hline
  rw [Bool.not_eq_false] at hline
  apply (beginsFilled_cons m ns).mp hb
  rw [← hc.1]
  simp [Reading.inside, Reading.ofLine, hline]

theorem Closed.last_ink (hc : Closed rules ms) (he : EndsFilled ms) :
    ∀ m ∈ ms.getLast?, isBlankLine m.1 = false := by
  intro m hm
  obtain ⟨init, rfl⟩ := List.getLast?_eq_some_iff.mp hm
  obtain ⟨e, -, hread, hafter⟩ := reads_append.mp hc
  by_contra hline
  rw [Bool.not_eq_false] at hline
  apply he m (by simp)
  rw [← hread]
  exact Reading.blank_of_after hline hafter

end Marks

namespace Lines

theorem unlines_ends {ls : List Line} {l : Line} (h : ls.getLast? = some l) (hl : l ≠ [])
    (hplain : '\n' ∉ l) : ∃ body, unlines ls = body ++ ['\n'] ∧ body ≠ [] ∧ ¬ endsInBreak body := by
  obtain ⟨init, rfl⟩ := List.getLast?_eq_some_iff.mp h
  refine ⟨unlines init ++ l, by simp [unlines], by simp [hl], ?_⟩
  obtain ⟨front, c, rfl⟩ := (List.eq_nil_or_concat l).resolve_left hl
  have hc : c ≠ '\n' := by
    rintro rfl
    exact hplain (by simp)
  simp [endsInBreak, hc]

end Lines

namespace Arrange

/-- How the lines of a text come from a script: the opening comment, then the
blocks in their order. -/
structure Spacing (s : Script) (bs : List Block) (text : Text) : Prop where
  perm : bs.Perm (blocks s)
  ordered : bs.Pairwise fun a b => a.kind.rank ≤ b.kind.rank
  stable : ∀ k : Kind, (bs.filter fun b => b.kind = k) = (blocks s).filter fun b => b.kind = k
  unblocked : bs = [] → Lines.lines text = (openingRun s.marks).map Prod.fst
  blocked : ∀ b rest, bs = b :: rest → ∃ tight, Tightens (Layout.rows s b) tight ∧
    Lines.lines text =
      (openingRun s.marks).map Prod.fst ++ (tight.map Prod.fst ++ s.spaced b rest)
  empty : text = [] ↔ ∀ r ∈ s.readings, r = .blank
  begins : ∀ l ∈ (Lines.lines text).head?, isBlankLine l = false
  ends : ∀ l ∈ (Lines.lines text).getLast?, isBlankLine l = false
  break_ends : text ≠ [] → ∃ body, text = body ++ ['\n'] ∧ body ≠ [] ∧ ¬ Lines.endsInBreak body

variable {rules : Rulebook} {t : Text}

theorem sort_stable (bs : List Block) (k : Kind) :
    ((Block.sort bs).filter fun b => b.kind = k) = bs.filter fun b => b.kind = k := by
  have hkind (cs : List Block) : (cs.filter fun b => b.kind = k) =
      StableSort.atKey (fun b => b.kind.rank) k.rank cs := by
    apply List.filter_congr
    intro b _
    exact decide_eq_decide.mpr ⟨congrArg Kind.rank, Kind.rank_injective⟩
  rw [hkind, hkind]
  exact StableSort.atKey_sorted _ _ _

theorem sorted_passages {s : Script} (hs : s.Even) {sh : Sheet} (h : s.marks = sh.marks) :
    Passage.sort (sh.outline.passages s.rules) =
      (Block.sort (blocks s)).map (Passage.ofBlock s) := by
  rw [Sheet.sort_passages, sh.blocks_sheet hs h,
    Outline.blocks_passages s.rules sh.outline (sh.drop_start h)]

section

variable {s : Script} (hs : s.Even) {sh : Sheet} (h : s.marks = sh.marks)
include hs h

theorem arranged_unblocked (hnone : Block.sort (blocks s) = []) :
    sh.arranged s.rules = openingRun s.marks := by
  have hcomments : glue sh.opening = sh.opening := by
    rw [glue_eq_self_iff]
    exact comments_not_apart sh.opening_comments
  rw [h, sh.openingRun_marks, Sheet.arranged, sorted_passages hs h, hnone]
  simpa [Passage.stack] using hcomments

theorem arranged_blocked {b : Block} {bs : List Block} (hsome : Block.sort (blocks s) = b :: bs) :
    ∃ tight, Tightens (Layout.rows s b) tight ∧ (sh.arranged s.rules).map Prod.fst =
      (openingRun s.marks).map Prod.fst ++ (tight.map Prod.fst ++ s.spaced b bs) := by
  have hsorted := sorted_passages hs h
  rw [hsome, List.map_cons] at hsorted
  obtain ⟨-, hbegins, hends⟩ := sh.sorted_filled (.ofBlock s b) (hsorted ▸ List.mem_cons_self)
  have hlast (hc : Comments (Layout.rows s b)) :
      Passage.stack (some (.ofBlock s b)) (bs.map (Passage.ofBlock s)) = [] := by
    rw [sh.outline.comments_last hsorted hc, Passage.stack]
  obtain ⟨tight, htight, hglue⟩ := exists_tightened sh.opening_comments hbegins hends hlast
  refine ⟨tight, htight, ?_⟩
  have harranged : sh.arranged s.rules = sh.opening ++ (tight ++
      Passage.stack (some (.ofBlock s b)) (bs.map (Passage.ofBlock s))) := by
    rw [← hglue, Sheet.arranged, hsorted]
    rfl
  rw [harranged, h, sh.openingRun_marks, List.map_append, List.map_append,
    Script.stack_spaced hs]

end

/-- If every string of a script ends, the arranged script is the opening comment
and the sorted blocks, whole and canonically spaced. -/
theorem blocks_stay_whole (h : Terminated t) :
    Spacing (Script.ofText rules t) (Block.sort (blocks (Script.ofText rules t)))
      (arrange rules t).text := by
  let s := Script.ofText rules t
  have hs : s.Even := Script.ofLines_even rules _
  obtain ⟨sh, hsh⟩ := Sheet.exists_sheet s.marks
  have hclosed : Closed rules (sh.arranged rules) := sh.closed_arranged (hsh ▸ closed_marks h)
  have hlines : Lines.lines (arrange rules t).text = (sh.arranged rules).map Prod.fst :=
    Sheet.lines_text (Lines.lines_plain t) sh hsh.symm hs
  have htext : (arrange rules t).text = Lines.unlines ((sh.arranged rules).map Prod.fst) :=
    sh.text_sheet hs hsh.symm
  have hlast : ∀ l ∈ (Lines.lines (arrange rules t).text).getLast?, isBlankLine l = false := by
    intro l hl
    rw [hlines, List.getLast?_map] at hl
    obtain ⟨m, hm, rfl⟩ := Option.map_eq_some_iff.mp hl
    exact hclosed.last_ink sh.arranged_ends m hm
  constructor
  · exact Block.sort_perm _
  · exact Block.sort_pairwise _
  · exact sort_stable _
  · intro hnone
    rw [hlines, ← arranged_unblocked hs hsh.symm hnone]
    rfl
  · intro b bs hsome
    rw [hlines]
    exact arranged_blocked hs hsh.symm hsome
  · have hblank : Blanks s.marks ↔ ∀ r ∈ s.readings, r = .blank := by
      rw [← Script.marks_readings hs, List.forall_mem_map]
      rfl
    have hnil : sh.arranged rules = [] ↔ Blanks sh.marks := sh.arranged_eq_nil_iff
    rw [← hblank, ← hsh, ← hnil, htext]
    cases sh.arranged rules with
    | nil => simp [Lines.unlines]
    | cons m ms => simp [Lines.unlines]
  · intro l hl
    rw [hlines, List.head?_map] at hl
    obtain ⟨m, hm, rfl⟩ := Option.map_eq_some_iff.mp hl
    exact hclosed.head_ink sh.arranged_begins m hm
  · exact hlast
  · intro hne
    have hrows : sh.arranged rules ≠ [] := by
      intro hnil
      rw [htext, hnil] at hne
      exact hne rfl
    obtain ⟨init, m, hsplit⟩ := (List.eq_nil_or_concat (sh.arranged rules)).resolve_left hrows
    have hline : ((sh.arranged rules).map Prod.fst).getLast? = some m.1 := by simp [hsplit]
    have hink : isBlankLine m.1 = false := hlast m.1 (by rw [hlines, hline]; rfl)
    have hplain := Sheet.plain_arranged (Lines.lines_plain t) sh hsh.symm m.1
      (List.mem_of_getLast? hline)
    rw [htext]
    apply Lines.unlines_ends hline _ hplain.1
    intro hnil
    simp [hnil, isBlankLine] at hink

def commentedScript : Text := "# a\n\n# b\n\nvar b\nfunc f():\n\tpass\nvar a\n".toList

theorem commentedScript_spaced : Terminated commentedScript ∧
    Lines.lines (arrange .default commentedScript).text =
      ["# a".toList, "# b".toList, "var b".toList, "var a".toList, [], "func f():".toList,
        "\tpass".toList] := by
  have hterm : Terminated commentedScript := by
    rw [Terminated]
    decide
  have hblocks : blocks (Script.ofText .default commentedScript) =
      [⟨2, 5, .publicVar⟩, ⟨5, 7, .publicFunc⟩, ⟨7, 8, .publicVar⟩] := by decide
  have hsort : Block.sort (blocks (Script.ofText .default commentedScript)) =
      [⟨2, 5, .publicVar⟩, ⟨7, 8, .publicVar⟩, ⟨5, 7, .publicFunc⟩] := by
    rw [hblocks]
    simp [Block.sort, Block.comesBefore, Kind.rank, List.mergeSort,
      List.MergeSort.Internal.splitInTwo]
  have hspaced : Spacing (Script.ofText .default commentedScript) _
      (arrange .default commentedScript).text := blocks_stay_whole hterm
  obtain ⟨tight, htight, hlines⟩ := hspaced.blocked _ _ hsort
  have hrows : Layout.rows (Script.ofText .default commentedScript) ⟨2, 5, .publicVar⟩ =
      [("# b".toList, .comment)] ++ ([([], .blank)] ++
        [("var b".toList, .declaration .publicVar)]) := by decide
  have hspelled : Tightens (Layout.rows (Script.ofText .default commentedScript) ⟨2, 5, .publicVar⟩)
      [("# b".toList, .comment), ("var b".toList, .declaration .publicVar)] :=
    ⟨_, _, _, hrows, rfl, by simp, by simp, by simp, by simp [BeginsUncommented]⟩
  refine ⟨hterm, ?_⟩
  rw [hlines, htight.unique hspelled]
  decide

end Arrange

end ScriptOrder
