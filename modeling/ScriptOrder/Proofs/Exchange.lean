import Mathlib.Data.List.Basic
import ScriptOrder.Proofs.Partition
import ScriptOrder.Proofs.SectionOrder

/-!
# Exchanging neighbouring blocks

Two neighbouring blocks of different kinds may change places in a script if
neither is the first block. Read again, the script has the same sections in
the other order, and the sections are sorted by their kinds anyway.
-/

set_option autoImplicit false

namespace ScriptOrder
open Marks

namespace Block

variable {α : Type}

def within (b : Block) (l : List α) : List α := (l.drop b.start).take b.length

/-- The list with two blocks in each other's place. What is between the blocks
stays between them. -/
def exchange (b c : Block) (l : List α) : List α :=
  l.take b.start ++ (c.within l ++ ((l.take c.start).drop b.stop ++ (b.within l ++ l.drop c.stop)))

theorem map_exchange {β : Type} (f : α → β) (b c : Block) (l : List α) :
    (b.exchange c l).map f = b.exchange c (l.map f) := by
  simp [exchange, within]

theorem mem_exchange {b c : Block} {l : List α} {a : α} (h : a ∈ b.exchange c l) : a ∈ l := by
  simp only [exchange, List.mem_append] at h
  rcases h with h | h | h | h | h
  · exact List.mem_of_mem_take h
  · exact List.mem_of_mem_drop (List.mem_of_mem_take h)
  · exact List.mem_of_mem_take (List.mem_of_mem_drop h)
  · exact List.mem_of_mem_drop (List.mem_of_mem_take h)
  · exact List.mem_of_mem_drop h

theorem within_append {b : Block} (front xs back : List α) (hb : b.start = front.length)
    (hs : b.stop = b.start + xs.length) : b.within (front ++ (xs ++ back)) = xs := by
  rw [within, length, hs, Nat.add_sub_cancel_left, hb, List.drop_left, List.take_left]

theorem exchange_append {b c : Block} (front xs between ys back : List α)
    (hb : b.start = front.length) (hbs : b.stop = b.start + xs.length)
    (hc : c.start = b.stop + between.length) (hcs : c.stop = c.start + ys.length) :
    b.exchange c (front ++ (xs ++ (between ++ (ys ++ back)))) =
      front ++ (ys ++ (between ++ (xs ++ back))) := by
  have hstop : b.stop = (front ++ xs).length := by rw [hbs, hb, List.length_append]
  have hstart : c.start = ((front ++ xs) ++ between).length := by
    rw [hc, hstop, ← List.length_append]
  have hend : c.stop = (((front ++ xs) ++ between) ++ ys).length := by
    rw [hcs, hstart, ← List.length_append]
  have hys := within_append ((front ++ xs) ++ between) ys back hstart hcs
  have hbetween : ((((front ++ xs) ++ between) ++ (ys ++ back)).take c.start).drop b.stop =
      between := by
    rw [hstart, List.take_left, hstop, List.drop_left]
  have hback : ((((front ++ xs) ++ between) ++ ys) ++ back).drop c.stop = back := by
    rw [hend, List.drop_left]
  simp only [List.append_assoc] at hys hbetween hback
  rw [exchange, hys, hbetween, hback, within_append front xs _ hb hbs, hb, List.take_left]

end Block

namespace Section

variable {rules : Rulebook}

def behind (t : Section) (gap : List Mark) (h : Blanks gap) : Section :=
  { t with gap := gap, gap_blank := h }

theorem closed_behind {t : Section} {gap : List Mark} (h : Blanks gap) (hg : Closed rules gap)
    (ht : Closed rules t.marks) : Closed rules (t.behind gap h).marks :=
  hg.append (ht.of_blanks t.gap_blank)

theorem opens_solid (t : Section) {rest : List Mark}
    (h : ∃ gap m ns, t.marks ++ rest = gap ++ m :: ns ∧ Blanks gap ∧ m.2.isSolid = true)
    (rest' : List Mark) :
    ∃ gap m ns, t.marks ++ rest' = gap ++ m :: ns ∧ Blanks gap ∧ m.2.isSolid = true := by
  obtain ⟨gap, m, ns, heq, hg, hm⟩ := h
  obtain ⟨first, rows, hrows⟩ := List.exists_cons_of_ne_nil t.rows_ne_nil
  have hfirst : first.2 ≠ .blank := t.rows_filled first (by simp [hrows])
  have hsolid := (isSolid_iff m.2).mp hm
  have hleft : (t.marks ++ rest).dropWhile (fun n => n.2.isBlank) = first :: (rows ++ rest) := by
    rw [marks, List.append_assoc, hrows]
    exact dropWhile_run t.gap_blank.all (by simpa using hfirst)
  have hright : (gap ++ m :: ns).dropWhile (fun n => n.2.isBlank) = m :: ns :=
    dropWhile_run hg.all (by simpa using hsolid.2)
  rw [heq, hright] at hleft
  obtain ⟨rfl, -⟩ := List.cons.inj hleft
  exact ⟨t.gap, m, rows ++ rest', by simp [marks, hrows], t.gap_blank, hm⟩

end Section

namespace Outline

variable {o : Outline} {first left right : Section} {before after : List Section}

/-- The outline with two neighbouring sections exchanged. The blank lines before
each of them stay where they are. -/
def exchange (o : Outline) (h : o.sections = first :: (before ++ left :: right :: after)) : Outline :=
  { o with
    sections := first :: (before ++ right.behind left.gap left.gap_blank ::
      left.behind right.gap right.gap_blank :: after)
    attached := by
      have hatt := o.attached
      rw [h] at hatt
      intro t ht
      simp only [List.tail_cons, List.mem_append, List.mem_cons] at ht
      rcases ht with ht | rfl | rfl | ht
      · exact hatt t (by simp [ht])
      · exact hatt right (by simp)
      · exact hatt left (by simp)
      · exact hatt t (by simp [ht])
    tail_notes := fun _ => o.tail_notes (by simp [h]) }

variable {rules : Rulebook} (h : o.sections = first :: (before ++ left :: right :: after))

theorem sort_exchange (hkind : left.settled rules ≠ right.settled rules) :
    Passage.sort ((o.exchange h).passages rules) = Passage.sort (o.passages rules) := by
  have hrank : (right.passage rules).kind.rank ≠ (left.passage rules).kind.rank :=
    fun hrank => hkind (Kind.rank_injective hrank).symm
  have hswap := StableSort.sorted_swap (fun p : Passage => p.kind.rank) hrank
    ((first :: before).map (Section.passage rules))
    (after.map (Section.passage rules) ++ tailPassages o.tail)
  have hexchanged : (o.exchange h).passages rules = (first :: before).map (Section.passage rules) ++
      right.passage rules :: left.passage rules ::
        (after.map (Section.passage rules) ++ tailPassages o.tail) := by
    simp [passages, exchange, Section.behind, Section.passage, Section.rows, Section.head,
      Section.settled]
  have hpassages : o.passages rules = (first :: before).map (Section.passage rules) ++
      left.passage rules :: right.passage rules ::
        (after.map (Section.passage rules) ++ tailPassages o.tail) := by
    simp [passages, h]
  rw [hexchanged, hpassages]
  exact hswap

def frontOf (first left : Section) (before : List Section) : List Mark :=
  first.marks ++ (before.flatMap Section.marks ++ left.gap)

def backOf (o : Outline) (after : List Section) : List Mark :=
  after.flatMap Section.marks ++ (o.gap ++ (o.tail ++ o.after))

include h in
theorem marks_neighbours : o.marks = frontOf first left before ++ (left.rows ++ (right.gap ++
    (right.rows ++ backOf o after))) := by
  simp [marks, h, frontOf, backOf, Section.marks]

theorem marks_exchange : (o.exchange h).marks = frontOf first left before ++ (right.rows ++
    (right.gap ++ (left.rows ++ backOf o after))) := by
  simp [marks, exchange, frontOf, backOf, Section.marks, Section.behind, Section.rows, Section.head]

theorem closed_exchange (hc : Closed rules o.marks) : Closed rules (o.exchange h).marks := by
  obtain ⟨hsections, hrest⟩ := closed_sections o.attached o.tail_uncoded hc
  rw [h] at hsections
  have hleft : Closed rules left.marks := hsections left (by simp)
  have hright : Closed rules right.marks := hsections right (by simp)
  apply Closed.append (closed_flatMap _) hrest
  intro t ht
  simp only [exchange, List.mem_cons, List.mem_append] at ht
  rcases ht with rfl | ht | rfl | rfl | ht
  · exact hsections t (by simp)
  · exact hsections t (by simp [ht])
  · exact Section.closed_behind _ (hleft.blanks_left left.gap_blank) hright
  · exact Section.closed_behind _ (hright.blanks_left right.gap_blank) hleft
  · exact hsections t (by simp [ht])

end Outline

namespace Sheet

variable {sh : Sheet} {first left right : Section} {before after : List Section}

/-- The sheet with two neighbouring sections exchanged. The section before them
keeps the opening comment as it is. -/
def exchange (sh : Sheet) (h : sh.outline.sections = first :: (before ++ left :: right :: after)) :
    Sheet :=
  { sh with
    outline := sh.outline.exchange h
    run_ends := by
      have hends := sh.run_ends
      rw [Outline.marks_neighbours h, Outline.frontOf, List.append_assoc,
        beginsUncommented_append first.marks_ne_nil] at hends
      rw [Outline.marks_exchange, Outline.frontOf, List.append_assoc]
      exact (beginsUncommented_append first.marks_ne_nil).mpr hends
    unopened := by
      intro hopening
      rcases sh.unopened hopening with hnil | ⟨hbefore, hsolid⟩
      · simp [Outline.marks, h, Section.marks, Section.rows] at hnil
      · rw [Outline.marks_neighbours h, Outline.frontOf, List.append_assoc] at hsolid
        rw [Outline.marks_exchange, Outline.frontOf, List.append_assoc]
        exact Or.inr ⟨hbefore, first.opens_solid hsolid _⟩ }

variable {rules : Rulebook} (h : sh.outline.sections = first :: (before ++ left :: right :: after))

theorem arranged_exchange (hkind : left.settled rules ≠ right.settled rules) :
    (sh.exchange h).arranged rules = sh.arranged rules := by
  rw [arranged, arranged, exchange, Outline.sort_exchange h hkind]

theorem closed_exchange (hc : Closed rules sh.marks) : Closed rules (sh.exchange h).marks := by
  obtain ⟨hopening, houtline⟩ := sh.closed_parts hc
  have hbefore : Closed rules sh.before := hc.blanks_left sh.before_blank
  exact hbefore.append (hopening.append (Outline.closed_exchange h houtline))

theorem marks_exchange {b c : Block}
    (hb : b = left.blockAt rules (sh.start + ((first :: before).flatMap Section.marks).length))
    (hc : c = right.blockAt rules
      (sh.start + ((first :: before ++ [left]).flatMap Section.marks).length)) :
    (sh.exchange h).marks = b.exchange c sh.marks := by
  let front := sh.before ++ (sh.opening ++ Outline.frontOf first left before)
  have hmarks : sh.marks = front ++ (left.rows ++ (right.gap ++ (right.rows ++
      Outline.backOf sh.outline after))) := by
    simp [marks, Outline.marks_neighbours h, front]
  have hexchange : (sh.exchange h).marks = front ++ (right.rows ++ (right.gap ++ (left.rows ++
      Outline.backOf sh.outline after))) := by
    simp [marks, exchange, Outline.marks_exchange, front]
  have hbegin : b.start = front.length := by
    simp [hb, front, Section.blockAt, Outline.frontOf, start, Nat.add_assoc]
  have hend : b.stop = b.start + left.rows.length := by
    rw [hb, Section.blockAt, Scan.section_stop]
  have hnext : c.start = b.stop + right.gap.length := by
    simp [hb, hc, Section.blockAt, Nat.add_assoc]
  have hstop : c.stop = c.start + right.rows.length := by
    rw [hc, Section.blockAt, Scan.section_stop]
  rw [hmarks, hexchange, Block.exchange_append front _ _ _ _ hbegin hend hnext hstop]

end Sheet

namespace Arrange
open Outline

section

variable {s : Script} (hs : s.Even) {sh : Sheet} (h : s.marks = sh.marks) {pre post : List Block}
  {b c : Block} (hblocks : blocks s = pre ++ b :: c :: post)
include hs h hblocks

/-- Up to a block with a declaration the blocks are those of the sections. -/
theorem exists_headed (hhead : s.heads c ≠ []) :
    ∃ rest, Scan.sectionBlocks s.rules sh.start sh.outline.sections = pre ++ b :: c :: rest := by
  have htail : s.marks.drop (sh.start + (sh.outline.sections.flatMap Section.marks).length +
      sh.outline.gap.length) = sh.outline.tail ++ sh.outline.after :=
    Script.drop_append (Script.drop_append (sh.drop_start h))
  have hunheaded := Scan.tail_heads hs htail sh.outline.tail_undeclared
  rw [sh.blocks_sheet hs h, Outline.blocks, Scan.blocksOf_eq] at hblocks
  have hsplit := List.append_eq_append_iff.mp
    (hblocks.trans (List.append_assoc pre [b, c] post).symm)
  rcases hsplit with ⟨ds, hpre, htailBlocks⟩ | ⟨rest, hsections, -⟩
  · rcases List.eq_nil_or_concat ds with rfl | ⟨init, d, rfl⟩
    · exact ⟨[], by simpa using hpre.symm⟩
    · -- The tail holds no declaration, so the later block is not there.
      have hlast : c = d := by simpa using congrArg List.getLast? hpre
      have hmem : c ∈ init.concat d ++ post := by simp [hlast]
      rw [← htailBlocks] at hmem
      exact absurd (hunheaded c hmem) hhead
  · exact ⟨rest, by simpa using hsections⟩

theorem exists_neighbours (hpre : pre ≠ []) (hhead : s.heads c ≠ []) :
    ∃ first before left right after,
      sh.outline.sections = first :: (before ++ left :: right :: after) ∧
      b = left.blockAt s.rules
        (sh.start + ((first :: before).flatMap Section.marks).length) ∧
      c = right.blockAt s.rules
        (sh.start + ((first :: before ++ [left]).flatMap Section.marks).length) := by
  obtain ⟨rest, hsections⟩ := exists_headed hs h hblocks hhead
  obtain ⟨before, left, others, hsplit, hlen, hb, hothers⟩ := Scan.exists_section hsections
  cases before with
  | nil => exact absurd (List.length_eq_zero_iff.mp hlen.symm) hpre
  | cons first before =>
    cases others with
    | nil => simp [Scan.sectionBlocks] at hothers
    | cons right after =>
      obtain ⟨hc, -⟩ := List.cons.inj hothers
      exact ⟨first, before, left, right, after, hsplit, hb, hc⟩

end

variable {rules : Rulebook} {t : Text}

/-- If every string of a script ends, two neighbouring blocks of different kinds
may be exchanged in it unless the earlier is the first or the later holds no
declaration; a block before one that holds a declaration holds one too. There
are texts with the lines so exchanged, and all of them are arranged as the
script. -/
theorem text_exchanged (h : Terminated t) {pre post : List Block} {b c : Block}
    (hblocks : blocks (Script.ofText rules t) = pre ++ b :: c :: post) (hpre : pre ≠ [])
    (hhead : (Script.ofText rules t).heads c ≠ []) (hkind : b.kind ≠ c.kind) :
    let ls := b.exchange c (Lines.lines (Lines.unify t))
    Lines.lines (Lines.unify (Lines.unlines ls)) = ls ∧
    ∀ u, Lines.lines (Lines.unify u) = ls →
      Terminated u ∧ (arrange rules u).text = (arrange rules t).text := by
  intro ls
  let s := Script.ofText rules t
  have hs : s.Even := Script.ofLines_even rules _
  obtain ⟨sh, hsh⟩ := Sheet.exists_sheet s.marks
  obtain ⟨first, before, left, right, after, hsections, hb, hc⟩ :=
    exists_neighbours hs hsh.symm hblocks hpre hhead
  have hclosed : Closed rules sh.marks := hsh ▸ closed_marks h
  have hexchange := sh.closed_exchange hsections hclosed
  have hlines : ((sh.exchange hsections).marks).map Prod.fst = ls := by
    rw [sh.marks_exchange hsections hb hc, Block.map_exchange, hsh, Script.marks_lines hs]
    rfl
  have hplain : ∀ l ∈ ls, Lines.Plain l := fun l hl => Lines.lines_plain t l (Block.mem_exchange hl)
  refine ⟨Lines.lines_unify_unlines ls hplain, fun u hu => ?_⟩
  have hu' : (Script.ofText rules u).marks = (sh.exchange hsections).marks := by
    rw [Script.ofText, hu, ← hlines]
    exact marks_of_closed hexchange
  constructor
  · rw [Terminated, hu, ← hlines, Reading.remarks_eq_nil]
    exact hexchange.afterAll
  · have hkinds : left.settled rules ≠ right.settled rules := by
      rw [hb, hc] at hkind
      exact hkind
    calc (arrange rules u).text
        = Lines.unlines (((sh.exchange hsections).arranged rules).map Prod.fst) :=
          (sh.exchange hsections).text_sheet (Script.ofLines_even rules _) hu'
      _ = Lines.unlines ((sh.arranged rules).map Prod.fst) := by
          rw [sh.arranged_exchange hsections hkinds]
      _ = (arrange rules t).text := (sh.text_sheet hs hsh.symm).symm

def interleaved : Text :=
  "extends Node\nfunc a():\n\tpass\n\n# b\n\nvar b = \"\"\"\nfunc c():\n\"\"\"\n# end\n".toList

def uninterleaved : Text :=
  "extends Node\n# b\n\nvar b = \"\"\"\nfunc c():\n\"\"\"\n\nfunc a():\n\tpass\n# end\n".toList

theorem interleaved_blocks : blocks (Script.ofText .default interleaved) =
    [⟨0, 1, .base⟩] ++ ⟨1, 3, .publicFunc⟩ :: ⟨4, 9, .publicVar⟩ :: [⟨9, 10, .loose⟩] := by decide

theorem interleaved_exchanged : Terminated interleaved ∧
    (arrange .default uninterleaved).text = (arrange .default interleaved).text := by
  have hterm : Terminated interleaved := by
    rw [Terminated]
    decide
  have hexchange := text_exchanged hterm interleaved_blocks (by simp) (by decide) (by decide)
  exact ⟨hterm, (hexchange.2 uninterleaved (by decide)).2⟩

end Arrange

end ScriptOrder
