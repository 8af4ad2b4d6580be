import Mathlib.Data.List.Basic
import ScriptOrder.Proofs.Reconversion

/-!
# Texts that the conversion keeps

A text without CR stays as it is, character by character, exactly when no docstring
in it ends; a single line break is the exception. What the lines are is told by the
string states between them alone, and `Converts` says that such lines are kept.
-/

set_option autoImplicit false

namespace ScriptOrder.Docstring
open Reading

/-- Where a line begins with the triple quote and no string is open before it, a
string is open after it and after every later line. -/
def Undocumented (e : Enclosure) (ls : List Line) : Prop := ∀ front l rest,
  ls = front ++ l :: rest → e.afterAll front = .outside → startsString l = true →
    ∀ n, e.afterAll (front ++ l :: rest.take n) ≠ .outside

variable {e f : Enclosure} {l : Line} {ls ns : List Line}

theorem Undocumented.tail (h : Undocumented e (l :: ls)) : Undocumented (e.after l) ls := by
  rintro front m rest rfl
  exact h (l :: front) m rest rfl

theorem stays_open (h : ∀ n, Enclosure.inComment.afterAll (ls.take n) ≠ .outside) :
    Stays .inComment ls .inComment := by
  induction ls with
  | nil => rfl
  | cons l ls ih =>
    have hafter : Enclosure.inComment.after l = .inComment := by
      have hopen : Enclosure.inComment.after l ≠ .outside := h 1
      rw [after_inComment, ite_ne_right_iff] at hopen
      rw [after_inComment, if_pos hopen.1]
    refine ⟨rfl, ?_⟩
    rw [hafter]
    refine ih fun n => ?_
    have hlater := h (n + 1)
    rwa [List.take_succ_cons, Enclosure.afterAll, hafter] at hlater

theorem spans_open (hstart : startsString l = true)
    (h : ∀ n, Enclosure.outside.afterAll (l :: ls.take n) ≠ .outside) : Spans (l :: ls) .inComment := by
  have hafter : Enclosure.outside.after l = .inComment := by
    have hopen : Enclosure.outside.after l ≠ .outside := h 0
    rw [after_outside, if_pos hstart, ite_ne_right_iff] at hopen
    rw [after_outside, if_pos hstart, if_pos hopen.1]
  refine ⟨l, ls, rfl, hstart, ?_⟩
  rw [hafter]
  exact stays_open fun n => hafter ▸ h n

theorem Spans.undocumented (h : Spans ls .inComment) : Undocumented .outside ls := by
  obtain ⟨m, ms, rfl, -, hstays⟩ := h
  rintro front l rest hsplit houtside - n
  have hopen (a b : List Line) (hab : ms = a ++ b) :
      Enclosure.outside.afterAll (m :: a) = .inComment := by
    rw [hab] at hstays
    exact hstays.afterAll_left
  cases front with
  | nil =>
    obtain ⟨rfl, rfl⟩ := List.cons.inj hsplit
    rw [List.nil_append, hopen _ _ (List.take_append_drop n ms).symm]
    simp
  | cons k front =>
    obtain ⟨rfl, hms⟩ := List.cons.inj hsplit
    rw [hopen front (l :: rest) hms] at houtside
    simp at houtside

theorem Undocumented.converts (h : Undocumented e ls) (he : e ≠ .inComment) :
    ∃ f, Converts e ls ls f := by
  induction ls generalizing e with
  | nil => exact ⟨e, .done e⟩
  | cons l ls ih =>
    by_cases hstart : e = .outside ∧ startsString l = true
    · obtain ⟨rfl, hquotes⟩ := hstart
      exact ⟨.inComment, .unended (spans_open hquotes (h [] l ls rfl rfl hquotes))⟩
    · have hplain (hout : e = .outside) : startsString l = false := by
        simpa [hout] using hstart
      have hafter : e.after l ≠ .inComment := by
        cases e with
        | outside =>
          rw [after_outside, hplain rfl]
          split <;> simp
        | inComment => exact absurd rfl he
        | inLiteral =>
          rw [after_inLiteral]
          split <;> simp
      obtain ⟨f, hf⟩ := ih h.tail hafter
      exact ⟨f, .kept he hplain hf⟩

theorem Converts.undocumented (h : Converts e ls ns f) (hsame : ns = ls) : Undocumented e ls := by
  induction h with
  | done e => simp [Undocumented]
  | @kept e f l ls ns _ hplain _ ih =>
    rintro front m rest hsplit houtside hstart
    cases front with
    | nil =>
      obtain ⟨rfl, -⟩ := List.cons.inj hsplit
      simp [hplain houtside] at hstart
    | cons k front =>
      obtain ⟨rfl, hls⟩ := List.cons.inj hsplit
      exact ih (List.cons.inj hsame).2 front m rest hls houtside hstart
  | @replaced f unit ls ns hspans _ _ =>
    obtain ⟨l, rest, rfl, hstart, -⟩ := hspans
    obtain ⟨c, cs, hcomments⟩ := List.exists_cons_of_ne_nil (comments_ne_nil (l :: rest))
    have hhash := comments_hash (l :: rest) c (by simp [hcomments])
    rw [hcomments, List.cons_append, List.cons_append] at hsame
    obtain ⟨tail, rfl⟩ := List.head?_eq_some_iff.mp ((List.cons.inj hsame).1 ▸ hhash)
    exact absurd hstart (by simp [startsString, CharClass.startsWith, CharClass.rest?, Quotes.triple])
  | unended hspans => exact hspans.undocumented

theorem convertLines_eq_self_iff : convertLines ls = ls ↔ Undocumented .outside ls := by
  constructor
  · exact (converts_lines ls).undocumented
  · intro h
    obtain ⟨f, hf⟩ := h.converts (by simp)
    exact hf.eq_convertFrom

/-- The texts that the conversion leaves unchanged. -/
theorem convert_eq_self_iff (t : Text) :
    convert t = t ↔ '\r' ∉ t ∧ t ≠ ['\n'] ∧ Undocumented .outside (Lines.lines t) := by
  constructor
  · intro h
    have hreturn : '\r' ∉ t := h ▸ convert_plain t
    have hbreak : t ≠ ['\n'] := h ▸ convert_ne_break t
    have hunified : Lines.unify t = t := Lines.unify_plain t hreturn
    have hlines := lines_convert (t := t) (by rwa [hunified])
    rw [h, hunified] at hlines
    exact ⟨hreturn, hbreak, convertLines_eq_self_iff.mp hlines.symm⟩
  · rintro ⟨hreturn, hbreak, hlines⟩
    exact convert_of_lines hreturn hbreak (convertLines_eq_self_iff.mpr hlines)

/-- A single line break holds no docstring and is lost all the same. -/
theorem break_not_kept : '\r' ∉ ['\n'] ∧ Undocumented .outside (Lines.lines ['\n']) ∧
    convert ['\n'] = [] ∧ convert ['\n'] ≠ ['\n'] := by
  refine ⟨by decide, ?_, by decide, by decide⟩
  exact convertLines_eq_self_iff.mp (by decide)

end ScriptOrder.Docstring
