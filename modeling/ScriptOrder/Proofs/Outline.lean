import ScriptOrder.Block
import ScriptOrder.Proofs.Marks

/-!
# Outlines

An outline tells how marked lines fall into sections. A section is a
declaration with what leads to it and its body, and keeps the blank lines
before it. Comments that lead to no declaration form the tail. Only the first
section may lead with more than comments and blank lines. `exists_outline`
gives every list of marks an outline.
-/

set_option autoImplicit false

namespace ScriptOrder
open Marks

structure Section where
  gap : List Mark
  lead : List Mark
  line : Line
  kind : Kind
  body : List Mark
  gap_blank : Blanks gap
  lead_undeclared : Undeclared lead
  lead_filled : BeginsFilled lead
  body_undeclared : Undeclared body
  body_solid : EndsSolid body

namespace Section

def head (s : Section) : Mark := (s.line, .declaration s.kind)

def rows (s : Section) : List Mark := s.lead ++ s.head :: s.body

def marks (s : Section) : List Mark := s.gap ++ s.rows

def Attached (s : Section) : Prop := Notes s.lead

instance (s : Section) : Decidable s.Attached := inferInstanceAs (Decidable (Notes s.lead))

def settled (rules : Rulebook) (s : Section) : Kind := rules.settle s.kind s.line

def headAt (i : Nat) (s : Section) : Nat := i + (s.gap.length + s.lead.length)

def blockAt (rules : Rulebook) (i : Nat) (s : Section) : Block :=
  ⟨i + s.gap.length, i + s.marks.length, s.settled rules⟩

def remarksAt (i : Nat) (s : Section) : List Remark :=
  if s.Attached then [] else [⟨i + s.gap.length, .stray (s.headAt i)⟩]

theorem rows_ne_nil (s : Section) : s.rows ≠ [] := by simp [rows]

theorem marks_ne_nil (s : Section) : s.marks ≠ [] := by simp [marks, s.rows_ne_nil]

theorem rows_solid (s : Section) : EndsSolid s.rows := by
  by_cases hbody : s.body = []
  · rw [rows, hbody]
    apply (endsSolid_append (by simp)).mpr
    simp [head, isSolid_iff]
  · rw [rows, List.append_cons]
    exact (endsSolid_append hbody).mpr s.body_solid

theorem rows_filled (s : Section) : BeginsFilled s.rows :=
  s.lead_filled.append (by simp [head])

end Section

structure Outline where
  sections : List Section
  gap : List Mark
  tail : List Mark
  after : List Mark
  attached : ∀ s ∈ sections.tail, s.Attached
  gap_blank : Blanks gap
  after_blank : Blanks after
  tail_undeclared : Undeclared tail
  tail_begins : BeginsFilled tail
  tail_ends : EndsFilled tail
  tail_notes : sections ≠ [] → Notes tail

namespace Outline

def marks (o : Outline) : List Mark := o.sections.flatMap Section.marks ++ (o.gap ++ (o.tail ++ o.after))

def tailBlocks (i : Nat) (tail : List Mark) : List Block :=
  if tail = [] then [] else [⟨i, i + tail.length, .loose⟩]

theorem mem_tailBlocks {i : Nat} {tail : List Mark} {b : Block} (h : b ∈ tailBlocks i tail) :
    b = ⟨i, i + tail.length, .loose⟩ := by
  rw [tailBlocks] at h
  split at h
  · simp at h
  · exact List.mem_singleton.mp h

def tailRemarks (i : Nat) (tail : List Mark) : List Remark :=
  if tail = [] then [] else [⟨i, .dangling⟩]

def blocksOf (rules : Rulebook) (gap tail : List Mark) : Nat → List Section → List Block
  | i, [] => tailBlocks (i + gap.length) tail
  | i, s :: ss => s.blockAt rules i :: blocksOf rules gap tail (i + s.marks.length) ss

def remarksOf (gap tail : List Mark) : Nat → List Section → List Remark
  | i, [] => tailRemarks (i + gap.length) tail
  | i, s :: ss => s.remarksAt i ++ remarksOf gap tail (i + s.marks.length) ss

def blocks (rules : Rulebook) (i : Nat) (o : Outline) : List Block :=
  blocksOf rules o.gap o.tail i o.sections

def remarks (i : Nat) (o : Outline) : List Remark := remarksOf o.gap o.tail i o.sections

/-- Every section is attached and the tail holds only comments: the outline of
lines that follow a declaration. -/
def Bound (o : Outline) : Prop := (∀ s ∈ o.sections, s.Attached) ∧ Notes o.tail

theorem exists_bound_nil : ∃ o : Outline, o.marks = [] ∧ o.Bound :=
  ⟨⟨[], [], [], [], by simp, by simp, by simp, by simp, by simp, by simp, by simp⟩,
    by simp [marks], by simp [Bound]⟩

theorem exists_bound_blank (m : Mark) (hm : m.2 = .blank) (o : Outline) (ho : o.Bound) :
    ∃ p : Outline, p.marks = m :: o.marks ∧ p.Bound := by
  obtain ⟨sections, gap, tail, after, attached, gap_blank, after_blank, und, begins, ends, notes⟩ := o
  cases sections with
  | nil =>
    exact ⟨⟨[], m :: gap, tail, after, attached, by simp [hm, gap_blank], after_blank, und, begins,
      ends, notes⟩, by simp [marks], ho⟩
  | cons s ss =>
    let padded : Section := { s with gap := m :: s.gap, gap_blank := by simp [hm, s.gap_blank] }
    refine ⟨⟨padded :: ss, gap, tail, after, attached, gap_blank, after_blank, und, begins, ends,
      fun _ => notes (by simp)⟩, ?_, ?_⟩
    · simp [marks, Section.marks, Section.rows, Section.head, padded]
    · have hs : padded.Attached := ho.1 s (by simp)
      exact ⟨by simpa [hs] using fun t ht => ho.1 t (by simp [ht]), ho.2⟩

theorem exists_bound_comment (m : Mark) (hm : m.2 = .comment) (o : Outline) (ho : o.Bound) :
    ∃ p : Outline, p.marks = m :: o.marks ∧ p.Bound := by
  obtain ⟨sections, gap, tail, after, attached, gap_blank, after_blank, und, begins, ends, notes⟩ := o
  have htail : Notes tail := ho.2
  cases sections with
  | nil =>
    by_cases ht : tail = []
    · refine ⟨⟨[], [], [m], gap ++ after, by simp, by simp, by simp [gap_blank, after_blank],
        by simp [hm], by simp [hm], by simp [EndsFilled, hm], by simp⟩, ?_, ?_⟩
      · simp [marks, ht]
      · simp [Bound, hm]
    · have hlong : Notes (m :: (gap ++ tail)) := by simp [hm, gap_blank.notes, htail]
      refine ⟨⟨[], [], m :: (gap ++ tail), after, by simp, by simp, after_blank, hlong.undeclared,
        by simp [hm], ?_, by simp⟩, by simp [marks], by simp, hlong⟩
      rw [← List.cons_append]
      exact (endsFilled_append ht).mpr ends
  | cons s ss =>
    have hlead : Notes (m :: (s.gap ++ s.lead)) := by
      have hs : Notes s.lead := ho.1 s (by simp)
      simp [hm, s.gap_blank.notes, hs]
    let led : Section :=
      { s with gap := [], lead := m :: (s.gap ++ s.lead), gap_blank := by simp,
               lead_undeclared := hlead.undeclared, lead_filled := by simp [hm] }
    refine ⟨⟨led :: ss, gap, tail, after, attached, gap_blank, after_blank, und, begins, ends,
      fun _ => htail⟩, ?_, ?_⟩
    · simp [marks, Section.marks, Section.rows, Section.head, led]
    · have hs : led.Attached := hlead
      exact ⟨by simpa [hs] using fun t ht => ho.1 t (by simp [ht]), htail⟩

theorem exists_bound_head (line : Line) (kind : Kind) (body : List Mark)
    (hu : Undeclared body) (hs : EndsSolid body) (o : Outline) (ho : o.Bound) :
    ∃ p : Outline, p.marks = (line, .declaration kind) :: (body ++ o.marks) ∧ p.Bound := by
  let s : Section := ⟨[], [], line, kind, body, by simp, by simp, by simp, hu, hs⟩
  refine ⟨⟨s :: o.sections, o.gap, o.tail, o.after, ho.1, o.gap_blank, o.after_blank,
    o.tail_undeclared, o.tail_begins, o.tail_ends, fun _ => ho.2⟩, ?_, ?_⟩
  · simp [marks, Section.marks, Section.rows, Section.head, s]
  · have hb : s.Attached := notes_nil
    exact ⟨by simpa [hb] using ho.1, ho.2⟩

theorem exists_body_outline (ms : List Mark) : ∃ (body : List Mark) (o : Outline),
    ms = body ++ o.marks ∧ Undeclared body ∧ EndsSolid body ∧ o.Bound := by
  induction ms with
  | nil =>
    obtain ⟨o, ho, hb⟩ := exists_bound_nil
    exact ⟨[], o, by simp [ho], by simp, by simp, hb⟩
  | cons m ms ih =>
    obtain ⟨body, o, rfl, hu, hs, hb⟩ := ih
    have keep (hm : ∀ k, m.2 ≠ .declaration k) (hends : EndsSolid (m :: body)) :
        ∃ (body' : List Mark) (o' : Outline), m :: (body ++ o.marks) = body' ++ o'.marks ∧
          Undeclared body' ∧ EndsSolid body' ∧ o'.Bound :=
      ⟨m :: body, o, rfl, by simp [hm, hu], hends, hb⟩
    have hends (n : Mark) (rest : List Mark) (hbody : body = n :: rest) : EndsSolid (m :: body) := by
      subst hbody
      simpa using hs
    -- Blanks and comments stay out of the body as long as no solid line follows in it.
    cases hr : m.2 with
    | declaration kind =>
      obtain ⟨p, hp, hpb⟩ := exists_bound_head m.1 kind body hu hs o hb
      exact ⟨[], p, by simp [hp, ← hr], by simp, by simp, hpb⟩
    | body =>
      apply keep (by simp [hr])
      cases body with
      | nil => simp [hr, isSolid_iff]
      | cons n rest => exact hends n rest rfl
    | code =>
      apply keep (by simp [hr])
      cases body with
      | nil => simp [hr, isSolid_iff]
      | cons n rest => exact hends n rest rfl
    | blank =>
      cases body with
      | nil =>
        obtain ⟨p, hp, hpb⟩ := exists_bound_blank m hr o hb
        exact ⟨[], p, by simp [hp], by simp, by simp, hpb⟩
      | cons n rest => exact keep (by simp [hr]) (hends n rest rfl)
    | comment =>
      cases body with
      | nil =>
        obtain ⟨p, hp, hpb⟩ := exists_bound_comment m hr o hb
        exact ⟨[], p, by simp [hp], by simp, by simp, hpb⟩
      | cons n rest => exact keep (by simp [hr]) (hends n rest rfl)

theorem exists_outline_stray (stray : List Mark) (hne : stray ≠ []) (hu : Undeclared stray)
    (hf : BeginsFilled stray) (hs : EndsSolid stray) (before : List Mark) (hb : Blanks before)
    (o : Outline) (ho : o.Bound) : ∃ p : Outline, p.marks = before ++ (stray ++ o.marks) := by
  obtain ⟨sections, gap, tail, after, attached, gap_blank, after_blank, und, begins, ends, notes⟩ := o
  cases sections with
  | nil =>
    by_cases ht : tail = []
    · exact ⟨⟨[], before, stray, gap ++ after, by simp, hb, by simp [gap_blank, after_blank],
        hu, hf, hs.endsFilled, by simp⟩, by simp [marks, ht]⟩
    · refine ⟨⟨[], before, stray ++ (gap ++ tail), after, by simp, hb, after_blank, ?_, ?_, ?_,
        by simp⟩, by simp [marks]⟩
      · simp [hu, gap_blank.notes.undeclared, und]
      · exact (beginsFilled_append hne).mpr hf
      · rw [← List.append_assoc]
        exact (endsFilled_append ht).mpr ends
  | cons s ss =>
    let led : Section :=
      { s with gap := before, lead := stray ++ (s.gap ++ s.lead), gap_blank := hb,
               lead_undeclared := by simp [hu, s.gap_blank.notes.undeclared, s.lead_undeclared],
               lead_filled := (beginsFilled_append hne).mpr hf }
    exact ⟨⟨led :: ss, gap, tail, after, attached, gap_blank, after_blank, und, begins, ends,
      fun _ => notes (by simp)⟩, by simp [marks, Section.marks, Section.rows, Section.head, led]⟩

theorem exists_outline (ms : List Mark) : ∃ o : Outline, o.marks = ms := by
  obtain ⟨body, o, rfl, hu, hs, ho⟩ := exists_body_outline ms
  obtain ⟨before, stray, rfl, hb, hf⟩ := exists_blanks body
  by_cases hne : stray = []
  · subst hne
    have hnil : before = [] := hb.notes.eq_nil (by simpa using hs)
    exact ⟨o, by simp [hnil]⟩
  · rw [List.append_assoc]
    rw [undeclared_append] at hu
    exact exists_outline_stray stray hne hu.2 hf ((endsSolid_append hne).mp hs) before hb o ho

end Outline

end ScriptOrder
