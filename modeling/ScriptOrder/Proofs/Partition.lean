import Mathlib.Data.List.Basic
import ScriptOrder.DefaultRules
import ScriptOrder.Proofs.ScanOutline

/-!
# Blocks partition the lines

The blocks of a scan stand in order, and what is around them is blank. Each
holds one declaration, up to a last one that holds none. Nothing is asked of
the readings: they need not fit the lines.
-/

set_option autoImplicit false

namespace ScriptOrder
open Marks

namespace Reading

def isDeclaration : Reading → Bool
  | declaration _ => true
  | _ => false

@[simp] theorem isDeclaration_iff (r : Reading) :
    r.isDeclaration = true ↔ ∃ kind, r = .declaration kind := by
  cases r <;> simp [isDeclaration]

@[simp] theorem isDeclaration_eq_false (r : Reading) :
    r.isDeclaration = false ↔ ∀ kind, r ≠ .declaration kind := by
  cases r <;> simp [isDeclaration]

end Reading

namespace Block

def Holds (b : Block) (i : Nat) : Prop := b.start ≤ i ∧ i < b.stop

instance (b : Block) (i : Nat) : Decidable (b.Holds i) :=
  inferInstanceAs (Decidable (b.start ≤ i ∧ i < b.stop))

def lines (b : Block) : List Nat := List.range' b.start b.length

theorem mem_lines {b : Block} {i : Nat} : i ∈ b.lines ↔ b.Holds i := by
  rw [lines, List.mem_range'_1, length, Holds]
  omega

end Block

namespace Script

def declared (s : Script) (i n : Nat) : List Nat :=
  (List.range' i n).filter fun j => (s.reading j).isDeclaration

def heads (s : Script) (b : Block) : List Nat := s.declared b.start b.length

/-- A block of the script that neither begins nor ends with a blank line. -/
structure Filled (s : Script) (b : Block) : Prop where
  nonempty : b.start < b.stop
  within : b.stop ≤ s.length
  begins : s.reading b.start ≠ .blank
  ends : s.reading (b.stop - 1) ≠ .blank

variable {s : Script} {i : Nat}

theorem mem_heads {b : Block} : i ∈ s.heads b ↔ b.Holds i ∧ ∃ kind, s.reading i = .declaration kind := by
  rw [heads, declared, List.mem_filter, Reading.isDeclaration_iff]
  exact and_congr_left' Block.mem_lines

theorem filled_of_drop (hs : s.Even) {ms ns : List Mark} (h : s.marks.drop i = ms ++ ns)
    (hne : ms ≠ []) (hb : BeginsFilled ms) (he : EndsFilled ms) (kind : Kind) :
    s.Filled ⟨i, i + ms.length, kind⟩ := by
  rcases List.eq_nil_or_concat ms with rfl | ⟨init, last, rfl⟩
  · exact absurd rfl hne
  · have hlast : s.marks.drop (i + init.length) = last :: ns := by
      apply drop_append
      simpa using h
    have hlt := lt_of_drop hs hlast
    have hends : s.reading (i + init.length) ≠ .blank := by
      rw [reading_of_drop hs hlast]
      exact he last (by simp)
    obtain ⟨first, rest, hcons⟩ := List.exists_cons_of_ne_nil hne
    have hbegins : s.reading i ≠ .blank := by
      rw [hcons] at h hb
      rw [reading_of_drop hs h]
      exact hb first (by simp)
    exact ⟨by simp, by simpa [Nat.add_assoc] using Nat.succ_le_of_lt hlt, hbegins, by simpa using hends⟩

theorem declared_add (s : Script) (i m n : Nat) :
    s.declared i (m + n) = s.declared i m ++ s.declared (i + m) n := by
  rw [declared, ← List.range'_append_1, List.filter_append, declared, declared]

theorem declared_undeclared (hs : s.Even) {ms ns : List Mark} (h : s.marks.drop i = ms ++ ns)
    (hu : Undeclared ms) : s.declared i ms.length = [] := by
  apply List.filter_eq_nil_iff.mpr
  intro j hj
  rw [List.mem_range'_1] at hj
  simpa using undeclared_within hs h hu j hj.1 hj.2

theorem declared_blank {n : Nat} (h : ∀ j, i ≤ j → j < i + n → s.reading j = .blank) :
    s.declared i n = [] := by
  apply List.filter_eq_nil_iff.mpr
  intro j hj
  rw [List.mem_range'_1] at hj
  simp [h j hj.1 hj.2]

theorem declared_head (hs : s.Even) {line : Line} {kind : Kind} {ms : List Mark}
    (h : s.marks.drop i = (line, .declaration kind) :: ms) : s.declared i 1 = [i] := by
  simp [declared, reading_of_drop hs h]

end Script

namespace Scan
open Script Outline

/-- From line `i` on the blocks stand one after another, with nothing but
blank lines before, between and after them. -/
inductive Spread (s : Script) : Nat → List Block → Prop
  | none {i : Nat} : (∀ j, i ≤ j → s.reading j = .blank) → Spread s i []
  | block {i : Nat} {b : Block} {bs : List Block} : i ≤ b.start →
      (∀ j, i ≤ j → j < b.start → s.reading j = .blank) → s.Filled b → Spread s b.stop bs →
      Spread s i (b :: bs)

namespace Spread

variable {s : Script} {i : Nat} {bs : List Block}

theorem filled (h : Spread s i bs) : ∀ b ∈ bs, i ≤ b.start ∧ s.Filled b := by
  induction h with
  | none => simp
  | block hi _ hb _ ih =>
    intro c hc
    rcases List.mem_cons.mp hc with rfl | hc
    · exact ⟨hi, hb⟩
    · obtain ⟨hle, hfilled⟩ := ih c hc
      have := hb.nonempty
      exact ⟨by omega, hfilled⟩

theorem ordered (h : Spread s i bs) : bs.Pairwise fun a b => a.start < b.start ∧ a.stop ≤ b.start := by
  induction h with
  | none => exact List.Pairwise.nil
  | block _ _ hb hrest ih =>
    apply List.pairwise_cons.mpr
    refine ⟨fun c hc => ?_, ih⟩
    have hle := (hrest.filled c hc).1
    have := hb.nonempty
    exact ⟨by omega, hle⟩

/-- The declarations from line `i` on are those of the blocks, in their order. -/
theorem declared (h : Spread s i bs) : s.declared i (s.length - i) = bs.flatMap s.heads := by
  induction h with
  | none hblank => exact declared_blank fun j hj _ => hblank j hj
  | @block i b bs hi hblank hb hrest ih =>
    have hlt := hb.nonempty
    have hle := hb.within
    have hsplit : s.length - i = (b.start - i) + (b.length + (s.length - b.stop)) := by
      rw [Block.length]
      omega
    have hstart : i + (b.start - i) = b.start := by omega
    have hstop : b.start + b.length = b.stop := by
      rw [Block.length]
      omega
    have hgap : s.declared i (b.start - i) = [] :=
      declared_blank fun j hj hjs => hblank j hj (by omega)
    rw [hsplit, declared_add, declared_add, hgap, hstart, hstop, ih]
    rfl

theorem uncounted (h : Spread s i bs) {j : Nat} (hj : j < i) :
    bs.countP (fun b => b.Holds j) = 0 := by
  apply List.countP_eq_zero.mpr
  intro b hb
  have hle := (h.filled b hb).1
  rw [decide_eq_true_eq]
  rintro ⟨hstart, -⟩
  omega

theorem counted (h : Spread s i bs) {j : Nat} (hj : i ≤ j) (hr : s.reading j ≠ .blank) :
    bs.countP (fun b => b.Holds j) = 1 := by
  induction h with
  | none hblank => exact absurd (hblank j hj) hr
  | @block i b bs hi hblank hb hrest ih =>
    have hstart : b.start ≤ j := by
      by_contra hlt
      exact hr (hblank j hj (by omega))
    by_cases hstop : j < b.stop
    · rw [List.countP_cons_of_pos (by simp [Block.Holds, hstart, hstop]), hrest.uncounted hstop]
    · rw [List.countP_cons_of_neg (by simp [Block.Holds, hstop])]
      exact ih (by omega)

end Spread

variable {s : Script} {i : Nat}

def sectionBlocks (rules : Rulebook) : Nat → List Section → List Block
  | _, [] => []
  | i, t :: ts => t.blockAt rules i :: sectionBlocks rules (i + t.marks.length) ts

theorem blocksOf_eq (rules : Rulebook) (gap tail : List Mark) (i : Nat) (sections : List Section) :
    blocksOf rules gap tail i sections = sectionBlocks rules i sections ++
      tailBlocks (i + (sections.flatMap Section.marks).length + gap.length) tail := by
  induction sections generalizing i with
  | nil => rfl
  | cons t ts ih => simp [blocksOf, sectionBlocks, ih, Nat.add_assoc]

theorem exists_section {rules : Rulebook} {pre post : List Block} {b : Block}
    {sections : List Section} (h : sectionBlocks rules i sections = pre ++ b :: post) :
    ∃ before t after, sections = before ++ t :: after ∧ before.length = pre.length ∧
      b = t.blockAt rules (i + (before.flatMap Section.marks).length) ∧
      post = sectionBlocks rules (i + ((before ++ [t]).flatMap Section.marks).length) after := by
  induction pre generalizing i sections with
  | nil =>
    cases sections with
    | nil => simp [sectionBlocks] at h
    | cons t ts =>
      obtain ⟨rfl, rfl⟩ := List.cons.inj h
      exact ⟨[], t, ts, by simp⟩
  | cons a pre ih =>
    cases sections with
    | nil => simp [sectionBlocks] at h
    | cons t ts =>
      obtain ⟨-, hrest⟩ := List.cons.inj h
      obtain ⟨before, u, after, rfl, hlen, rfl, rfl⟩ := ih hrest
      exact ⟨t :: before, u, after, by simp [hlen, Nat.add_assoc]⟩

theorem exists_section_of_mem {rules : Rulebook} {b : Block} {sections : List Section}
    (h : b ∈ sectionBlocks rules i sections) : ∃ before t after, sections = before ++ t :: after ∧
      b = t.blockAt rules (i + (before.flatMap Section.marks).length) := by
  obtain ⟨pre, post, hsplit⟩ := List.append_of_mem h
  obtain ⟨before, t, after, hsections, -, hb, -⟩ := exists_section hsplit
  exact ⟨before, t, after, hsections, hb⟩

theorem drop_section {before after : List Section} {t : Section} {rest : List Mark}
    (h : s.marks.drop i = (before ++ t :: after).flatMap Section.marks ++ rest) :
    s.marks.drop (i + (before.flatMap Section.marks).length) =
      t.marks ++ (after.flatMap Section.marks ++ rest) := by
  apply drop_append
  simpa using h

theorem section_rows {t : Section} {rest : List Mark} (h : s.marks.drop i = t.marks ++ rest) :
    s.marks.drop (i + t.gap.length) = t.rows ++ rest := by
  apply drop_append
  simpa [Section.marks] using h

theorem section_stop (t : Section) (i : Nat) :
    i + t.marks.length = i + t.gap.length + t.rows.length := by
  rw [Section.marks, List.length_append, Nat.add_assoc]

theorem section_filled (hs : s.Even) (rules : Rulebook) {t : Section} {rest : List Mark}
    (h : s.marks.drop i = t.marks ++ rest) : s.Filled (t.blockAt rules i) := by
  rw [Section.blockAt, section_stop]
  exact filled_of_drop hs (section_rows h) t.rows_ne_nil t.rows_filled
    t.rows_solid.endsFilled _

theorem section_heads (hs : s.Even) (rules : Rulebook) {t : Section} {rest : List Mark}
    (h : s.marks.drop i = t.marks ++ rest) : s.heads (t.blockAt rules i) = [t.headAt i] := by
  have hlead : s.marks.drop (i + t.gap.length) = t.lead ++ (t.head :: (t.body ++ rest)) := by
    simpa [Section.rows] using section_rows h
  have hhead := drop_append hlead
  have hlen : (t.blockAt rules i).length = t.lead.length + (1 + t.body.length) := by
    rw [Block.length, Section.blockAt, section_stop, Section.rows]
    simp
    omega
  rw [heads, hlen, declared_add, declared_add]
  rw [show (t.blockAt rules i).start = i + t.gap.length from rfl,
    declared_undeclared hs hlead t.lead_undeclared, declared_head hs hhead,
    declared_undeclared hs (drop_cons hhead) t.body_undeclared, Section.headAt, Nat.add_assoc]
  rfl

theorem tail_heads (hs : s.Even) {tail after : List Mark} (h : s.marks.drop i = tail ++ after)
    (hu : Undeclared tail) : ∀ b ∈ tailBlocks i tail, s.heads b = [] := by
  intro b hb
  rw [mem_tailBlocks hb, heads, Block.length, Nat.add_sub_cancel_left]
  exact declared_undeclared hs h hu

theorem spread_outline (hs : s.Even) (rules : Rulebook) {gap tail after : List Mark}
    (hg : Blanks gap) (hb : BeginsFilled tail) (he : EndsFilled tail) (ha : Blanks after)
    (sections : List Section)
    (h : s.marks.drop i = sections.flatMap Section.marks ++ (gap ++ (tail ++ after))) :
    Spread s i (blocksOf rules gap tail i sections) := by
  induction sections generalizing i with
  | nil =>
    have hgap : s.marks.drop i = gap ++ (tail ++ after) := by simpa using h
    have htail := drop_append hgap
    by_cases ht : tail = []
    · subst ht
      exact Spread.none (blank_onward hs hgap (by simp [hg, ha]))
    · rw [blocksOf, tailBlocks, if_neg ht]
      exact Spread.block (by simp) (blank_within hs hgap hg)
        (filled_of_drop hs htail ht hb he _)
        (Spread.none (blank_onward hs (drop_append htail) ha))
  | cons t ts ih =>
    have hmarks : s.marks.drop i =
        t.marks ++ (ts.flatMap Section.marks ++ (gap ++ (tail ++ after))) := by simpa using h
    have hgap : s.marks.drop i = t.gap ++ (t.rows ++ (ts.flatMap Section.marks ++
        (gap ++ (tail ++ after)))) := by simpa [Section.marks] using hmarks
    exact Spread.block (by simp [Section.blockAt]) (blank_within hs hgap t.gap_blank)
      (section_filled hs rules hmarks) (ih (drop_append hmarks))

theorem sections_headed (hs : s.Even) (rules : Rulebook) (sections : List Section)
    {rest : List Mark} (h : s.marks.drop i = sections.flatMap Section.marks ++ rest) :
    ∀ b ∈ sectionBlocks rules i sections, (s.heads b).length = 1 := by
  induction sections generalizing i with
  | nil => simp [sectionBlocks]
  | cons t ts ih =>
    have hmarks : s.marks.drop i = t.marks ++ (ts.flatMap Section.marks ++ rest) := by
      simpa using h
    intro b hb
    rcases List.mem_cons.mp hb with rfl | hb
    · simp [section_heads hs rules hmarks]
    · exact ih (drop_append hmarks) b hb

/-- The blocks from a line on take the lines apart: every line that is not
blank is in one of them. -/
structure Partition (s : Script) (start : Nat) (bs : List Block) : Prop where
  inside : ∀ b ∈ bs, start ≤ b.start ∧ b.start < b.stop ∧ b.stop ≤ s.length
  ordered : bs.Pairwise fun a b => a.start < b.start ∧ a.stop ≤ b.start
  filled : ∀ b ∈ bs, s.reading b.start ≠ .blank ∧ s.reading (b.stop - 1) ≠ .blank
  counted : ∀ i, start ≤ i → s.reading i ≠ .blank → bs.countP (fun b => b.Holds i) = 1
  apart : ∀ i, start ≤ i → (∀ b ∈ bs, ¬ b.Holds i) → s.reading i = .blank
  headed : ∃ sections loose, bs = sections ++ loose ∧ (∀ b ∈ sections, (s.heads b).length = 1) ∧
    loose.length ≤ 1 ∧ ∀ b ∈ loose, s.heads b = [] ∧ b.kind = .loose

theorem Spread.partition {start : Nat} {sections loose : List Block}
    (h : Spread s start (sections ++ loose)) (hsec : ∀ b ∈ sections, (s.heads b).length = 1)
    (hlen : loose.length ≤ 1) (hloose : ∀ b ∈ loose, s.heads b = [] ∧ b.kind = .loose) :
    Partition s start (sections ++ loose) where
  inside b hb := ⟨(h.filled b hb).1, (h.filled b hb).2.nonempty, (h.filled b hb).2.within⟩
  ordered := h.ordered
  filled b hb := ⟨(h.filled b hb).2.begins, (h.filled b hb).2.ends⟩
  counted _ hi hr := h.counted hi hr
  apart i hi hnone := by
    by_contra hr
    have hone := h.counted hi hr
    rw [List.countP_eq_zero.mpr (by simpa using hnone)] at hone
    simp at hone
  headed := ⟨sections, loose, rfl, hsec, hlen, hloose⟩

theorem partition_outline (hs : s.Even) (rules : Rulebook) (o : Outline)
    (h : s.marks.drop i = o.marks) : Partition s i (o.blocks rules i) := by
  have hspread := spread_outline hs rules o.gap_blank o.tail_begins o.tail_ends o.after_blank
    o.sections h
  have htail := drop_append (drop_append h)
  rw [blocksOf_eq] at hspread
  rw [Outline.blocks, blocksOf_eq]
  apply hspread.partition (sections_headed hs rules o.sections h)
  · rw [tailBlocks]
    split <;> simp
  · intro b hb
    exact ⟨tail_heads hs htail o.tail_undeclared b hb, by rw [mem_tailBlocks hb]⟩

theorem spread_blocks (hs : s.Even) (start : Nat) : Spread s start (blocks s start) := by
  obtain ⟨o, ho⟩ := Outline.exists_outline (s.marks.drop start)
  rw [blocks_outline hs o ho.symm]
  exact spread_outline hs s.rules o.gap_blank o.tail_begins o.tail_ends o.after_blank o.sections
    ho.symm

theorem blocks_partition (hs : s.Even) (start : Nat) : Partition s start (blocks s start) := by
  obtain ⟨o, ho⟩ := Outline.exists_outline (s.marks.drop start)
  rw [blocks_outline hs o ho.symm]
  exact partition_outline hs s.rules o ho.symm

def contrary : Script :=
  ⟨["# a".toList, "var x".toList, [], "pass".toList, "\t".toList, "func f():".toList, ")".toList],
    [.comment, .code, .declaration .callback, .blank, .body, .comment, .comment], .default⟩

theorem contrary_partition : contrary.Even ∧
    blocks contrary 1 = [⟨1, 5, .privateFunc⟩, ⟨5, 7, .loose⟩] ∧
    Partition contrary 1 (blocks contrary 1) := by
  have heven : contrary.Even := rfl
  exact ⟨heven, by decide, blocks_partition heven 1⟩

end Scan

end ScriptOrder
