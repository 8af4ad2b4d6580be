import Mathlib.Data.List.Basic
import ScriptOrder.Proofs.Marks

/-!
# Strings around marks

`Reads rules e ms f` says that the lines of the marks, read after a string
state `e`, get the readings they are marked with and leave the state `f`. The
readings next to a cut tell the state there: marks that read from outside to
outside can be moved.
-/

set_option autoImplicit false

namespace ScriptOrder
open Reading

namespace Quotes

theorem openIn_blanks (line : Line) (h : isBlankLine line = true) : openIn .plain line = false := by
  induction line with
  | nil => rfl
  | cons c line ih =>
    rw [isBlankLine, List.all_cons, Bool.and_eq_true] at h
    have hhash : c ≠ '#' := by
      rintro rfl
      exact absurd h.1 (by decide)
    have hdouble : c ≠ '"' := by
      rintro rfl
      exact absurd h.1 (by decide)
    have hsingle : c ≠ '\'' := by
      rintro rfl
      exact absurd h.1 (by decide)
    rw [openIn, if_neg hhash, if_neg (by simp [hdouble, hsingle])]
    · exact ih h.2
    · rintro _ rfl
      exact absurd rfl hdouble

theorem openIn_hash (line : Line) (h : line.head? = some '#') : openIn .plain line = false := by
  cases line with
  | nil => rfl
  | cons c line =>
    obtain rfl : c = '#' := by simpa using h
    simp [openIn]

end Quotes

namespace Reading

theorem Enclosure.afterAll_append (e : Enclosure) (ls ms : List Line) :
    e.afterAll (ls ++ ms) = (e.afterAll ls).afterAll ms := by
  induction ls generalizing e with
  | nil => rfl
  | cons l ls ih => exact ih (e.after l)

theorem after_outside (line : Line) : Enclosure.outside.after line =
    if Quotes.leavesOpen false line then
      if startsString line then .inComment else .inLiteral
    else .outside := rfl

theorem after_inComment (line : Line) : Enclosure.inComment.after line =
    if Quotes.leavesOpen true line then .inComment else .outside := rfl

theorem after_inLiteral (line : Line) : Enclosure.inLiteral.after line =
    if Quotes.leavesOpen true line then .inLiteral else .outside := rfl

variable {rules : Rulebook} {line : Line} {e : Enclosure}

theorem startsString_blank (h : isBlankLine line = true) : startsString line = false := by
  cases line with
  | nil => rfl
  | cons c line =>
    rw [isBlankLine, List.all_cons, Bool.and_eq_true] at h
    have hc : '"' ≠ c := by
      rintro rfl
      exact absurd h.1 (by decide)
    simp [startsString, Quotes.triple, CharClass.startsWith, CharClass.rest?, hc]

theorem blank_of_inside (h : inside rules line e = .blank) :
    e = .outside ∧ isBlankLine line = true := by
  cases e with
  | outside =>
    constructor
    · rfl
    · by_contra hb
      rw [inside, ofLine, if_neg hb] at h
      split at h
      · simp at h
      · split at h
        · simp at h
        · split at h <;> simp at h
  | inComment => simp [inside] at h
  | inLiteral => simp [inside] at h

theorem comment_of_outside (h : inside rules line .outside = .comment) : startsComment line = true := by
  rw [inside, ofLine] at h
  split at h
  · simp at h
  · split at h
    · assumption
    · split at h
      · simp at h
      · split at h <;> simp at h

theorem inside_startsString (h : startsString line = true) : inside rules line .outside = .comment := by
  have hb : ¬ isBlankLine line = true := by
    intro hb
    simp [startsString_blank hb] at h
  rw [inside, ofLine, if_neg hb, if_pos]
  simp [startsComment, h]

theorem after_blank (h : inside rules line e = .blank) : e.after line = .outside := by
  obtain ⟨rfl, hb⟩ := blank_of_inside h
  have hopen : Quotes.leavesOpen false line = false := Quotes.openIn_blanks line hb
  simp [after_outside, hopen]

theorem after_comment (h : inside rules line e = .comment) : e.after line ≠ .inLiteral := by
  cases e with
  | outside =>
    by_cases hs : startsString line = true
    · rw [after_outside, if_pos hs]
      split <;> simp
    · have hhash : line.head? = some '#' := by
        simpa [startsComment, hs] using comment_of_outside h
      have hopen : Quotes.leavesOpen false line = false := Quotes.openIn_hash line hhash
      simp [after_outside, hopen]
  | inComment =>
    rw [after_inComment]
    split <;> simp
  | inLiteral => simp [inside] at h

theorem after_uncommented (h : inside rules line e ≠ .comment) : e.after line ≠ .inComment := by
  cases e with
  | outside =>
    have hs : ¬ startsString line = true := fun hs => h (inside_startsString hs)
    rw [after_outside, if_neg hs]
    split <;> simp
  | inComment => simp [inside] at h
  | inLiteral =>
    rw [after_inLiteral]
    split <;> simp

/-- Between two lines of which the first is no comment and the second no code
there is no open string. -/
theorem outside_of_uncoded (he : e ≠ .inComment) (h : inside rules line e ≠ .code) : e = .outside := by
  cases e with
  | outside => rfl
  | inComment => exact absurd rfl he
  | inLiteral => exact absurd rfl h

theorem outside_of_uncommented (he : e ≠ .inLiteral) (h : inside rules line e ≠ .comment) :
    e = .outside := by
  cases e with
  | outside => rfl
  | inComment => exact absurd rfl h
  | inLiteral => exact absurd rfl he

theorem openerIn_eq_none (e : Enclosure) (opener n : Nat) (ls : List Line) :
    openerIn e opener n ls = none ↔ e.afterAll ls = .outside := by
  induction ls generalizing e opener n with
  | nil => cases e <;> simp [openerIn, Enclosure.isOpen, Enclosure.afterAll]
  | cons l ls ih => rw [openerIn, ih, Enclosure.afterAll]

theorem remarks_eq_nil (ls : List Line) : remarks ls = [] ↔ Enclosure.outside.afterAll ls = .outside := by
  rw [← openerIn_eq_none .outside 0 0 ls, remarks]
  split <;> simp_all

end Reading

namespace Marks

/-- The marks are the readings of their lines from one string state to another. -/
def Reads (rules : Rulebook) : Enclosure → List Mark → Enclosure → Prop
  | e, [], f => e = f
  | e, m :: ms, f => inside rules m.1 e = m.2 ∧ Reads rules (e.after m.1) ms f

def Closed (rules : Rulebook) (ms : List Mark) : Prop := Reads rules .outside ms .outside

variable {rules : Rulebook} {e f g : Enclosure} {ms ns : List Mark}

theorem reads_append : Reads rules e (ms ++ ns) g ↔ ∃ f, Reads rules e ms f ∧ Reads rules f ns g := by
  induction ms generalizing e with
  | nil => simp [Reads]
  | cons m ms ih => simp [Reads, ih, and_assoc]

theorem reads_zip (rules : Rulebook) (e : Enclosure) (ls : List Line) :
    Reads rules e (ls.zip (ofLinesIn rules e ls)) (e.afterAll ls) := by
  induction ls generalizing e with
  | nil => rfl
  | cons l ls ih => exact ⟨rfl, ih (e.after l)⟩

theorem Reads.readings (h : Reads rules e ms f) :
    ofLinesIn rules e (ms.map Prod.fst) = ms.map Prod.snd := by
  induction ms generalizing e with
  | nil => rfl
  | cons m ms ih =>
    have hrest := ih h.2
    simp [ofLinesIn, h.1, hrest]

theorem Reads.afterAll (h : Reads rules e ms f) : e.afterAll (ms.map Prod.fst) = f := by
  induction ms generalizing e with
  | nil => exact h
  | cons m ms ih => exact ih h.2

theorem Reads.blanks (h : Reads rules e ms f) (hb : Blanks ms) : e = f := by
  induction ms generalizing e with
  | nil => exact h
  | cons m ms ih =>
    rw [blanks_cons] at hb
    have hm : inside rules m.1 e = .blank := h.1.trans hb.1
    rw [(blank_of_inside hm).1, ← after_blank hm]
    exact ih h.2 hb.2

theorem Reads.comments (h : Reads rules e ms f) (hc : Comments ms) (he : e ≠ .inLiteral) :
    f ≠ .inLiteral := by
  induction ms generalizing e with
  | nil => exact h ▸ he
  | cons m ms ih =>
    rw [comments_cons] at hc
    exact ih h.2 hc.2 (after_comment (h.1.trans hc.1))

theorem Reads.solid (h : Reads rules e ms f) (hs : EndsSolid ms) (he : e ≠ .inComment) :
    f ≠ .inComment := by
  rcases List.eq_nil_or_concat ms with rfl | ⟨init, m, rfl⟩
  · exact h ▸ he
  · rw [List.concat_eq_append] at h hs
    obtain ⟨d, -, hm, rfl⟩ := reads_append.mp h
    have hsolid := (isSolid_iff m.2).mp (hs m (by simp))
    exact after_uncommented (hm ▸ hsolid.1)

theorem Reads.uncoded (h : Reads rules e ms .outside) (hm : BeginsUncoded ms)
    (he : e ≠ .inComment) : e = .outside := by
  cases ms with
  | nil => exact h
  | cons m ms =>
    apply outside_of_uncoded he
    rw [h.1]
    exact hm m rfl

theorem Reads.uncommented (h : Reads rules e ms .outside) (hm : BeginsUncommented ms)
    (he : e ≠ .inLiteral) : e = .outside := by
  cases ms with
  | nil => exact h
  | cons m ms =>
    apply outside_of_uncommented he
    rw [h.1]
    exact hm m rfl

theorem Closed.append (hm : Closed rules ms) (hn : Closed rules ns) : Closed rules (ms ++ ns) :=
  reads_append.mpr ⟨.outside, hm, hn⟩

theorem Closed.of_append (h : Closed rules (ms ++ ns)) (hm : Closed rules ms) : Closed rules ns := by
  obtain ⟨f, hf, hn⟩ := reads_append.mp h
  obtain rfl : f = .outside := hf.afterAll.symm.trans hm.afterAll
  exact hn

theorem Closed.blanks_left (h : Closed rules (ms ++ ns)) (hm : Blanks ms) : Closed rules ms := by
  obtain ⟨f, hf, -⟩ := reads_append.mp h
  obtain rfl := hf.blanks hm
  exact hf

theorem Closed.of_blanks (h : Closed rules (ms ++ ns)) (hm : Blanks ms) : Closed rules ns := by
  obtain ⟨f, hf, hn⟩ := reads_append.mp h
  obtain rfl := hf.blanks hm
  exact hn

end Marks

end ScriptOrder
