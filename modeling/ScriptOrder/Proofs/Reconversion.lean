import Mathlib.Data.List.Basic
import ScriptOrder.Proofs.ConvertedText

/-!
# Converting twice

The relation `Converts` leaves no choice: it is the graph of the conversion. The
lines a conversion writes hold no docstring that ends, so the relation keeps each
of them, and the converted text is the text of its own conversion.
-/

set_option autoImplicit false

namespace ScriptOrder

namespace Lines

theorem joined_lines (t : Text) :
    joined (lines t) ++ (if endsInBreak t then ['\n'] else []) = t := by
  obtain ⟨init, rest, rfl, hinit, hrest⟩ := exists_rest t
  rw [lines_unlines_append hinit]
  by_cases hnil : rest = []
  · subst hnil
    rw [lines, List.append_nil, List.append_nil]
    by_cases hnone : init = []
    · rw [hnone]
      rfl
    · rw [endsInBreak_unlines hnone, if_pos rfl, joined_break hnone]
  · rw [lines_single hnil hrest, joined_concat, endsInBreak_append hnil hrest,
      if_neg Bool.false_ne_true, List.append_nil]

end Lines

namespace Docstring
open Reading

variable {e f : Enclosure} {l : Line} {ls ns ks unit : List Line}

theorem convertIn_stays (h : Stays .inComment ls f) : convertIn (.inUnit unit) ls =
    if f = .outside then comments (unit.reverse ++ ls) else unit.reverse ++ ls := by
  induction ls generalizing unit with
  | nil =>
    obtain rfl : .inComment = f := h
    simp [convertIn]
  | cons l ls ih =>
    obtain ⟨-, hrest⟩ := h
    rw [after_inComment] at hrest
    rw [convertIn]
    by_cases hopen : Quotes.leavesOpen true l = true
    · rw [if_pos hopen] at hrest
      rw [if_pos hopen, ih hrest]
      simp
    · rw [if_neg hopen] at hrest
      obtain ⟨rfl, rfl⟩ := hrest.eq_nil
      rw [if_neg hopen, if_pos rfl]
      simp [convertIn]

theorem convertFrom_spans (h : Spans unit f) :
    convertFrom .outside unit = if f = .outside then comments unit else unit := by
  obtain ⟨l, ls, rfl, hstart, hstays⟩ := h
  rw [after_outside] at hstays
  rw [convertFrom, State.ofEnclosure, convertIn_cons, State.emit, State.next, if_pos hstart]
  by_cases hopen : Quotes.leavesOpen false l = true
  · rw [if_pos hopen, if_pos hstart] at hstays
    rw [if_pos hopen, if_pos hopen, if_pos hstart, convertIn_stays hstays]
    rfl
  · rw [if_neg hopen] at hstays
    obtain ⟨rfl, rfl⟩ := hstays.eq_nil
    rw [if_neg hopen, if_neg hopen, if_pos rfl]
    simp [convertIn]

theorem convertFrom_cons (he : e ≠ .inComment) (hstart : e = .outside → startsString l = false)
    (ls : List Line) : convertFrom e (l :: ls) = l :: convertFrom (e.after l) ls := by
  rw [convertFrom, convertIn_cons, convertFrom]
  cases e with
  | outside =>
    have hnot : ¬ startsString l = true := by simp [hstart rfl]
    rw [State.ofEnclosure, State.emit, State.next, if_neg hnot, if_neg hnot, after_outside,
      if_neg hnot]
    split <;> rfl
  | inComment => exact absurd rfl he
  | inLiteral =>
    rw [State.ofEnclosure, State.emit, State.next, after_inLiteral]
    split <;> rfl

namespace Converts

theorem eq_convertFrom (h : Converts e ls ns f) : convertFrom e ls = ns := by
  induction h with
  | done e => cases e <;> rfl
  | kept he hstart _ ih => rw [convertFrom_cons he hstart, ih]
  | replaced hspans _ ih =>
    rw [convertFrom_append (by simp) hspans.afterAll (by simp), convertFrom_spans hspans, if_pos rfl, ih]
  | unended hspans => rw [convertFrom_spans hspans, if_neg (by simp)]

theorem hash_append {cs : List Line} (hcs : ∀ c ∈ cs, c.head? = some '#')
    (h : Converts .outside ls ns f) : Converts .outside (cs ++ ls) (cs ++ ns) f := by
  induction cs with
  | nil => exact h
  | cons c cs ih =>
    rw [List.forall_mem_cons] at hcs
    have hone : ∀ d ∈ [c], d.head? = some '#' := by simpa using hcs.1
    have hafter : Enclosure.outside.after c = .outside := afterAll_hash hone
    refine .kept (by simp) (fun _ => ?_) (hafter.symm ▸ ih hcs.2)
    obtain ⟨rest, rfl⟩ := List.head?_eq_some_iff.mp hcs.1
    rfl

/-- The lines that were written are kept when they are read again. -/
theorem again (h : Converts e ls ns f) : Converts e ns ns f := by
  induction h with
  | done e => exact .done e
  | kept he hstart _ ih => exact .kept he hstart ih
  | @replaced f unit ls ns _ _ ih => exact ih.hash_append (comments_hash unit)
  | unended hspans => exact .unended hspans

end Converts

theorem convertLines_convertLines (ls : List Line) :
    convertLines (convertLines ls) = convertLines ls :=
  (converts_lines ls).again.eq_convertFrom

theorem convert_of_lines {t : Text} (hr : '\r' ∉ t) (hbreak : t ≠ ['\n'])
    (h : convertLines (Lines.lines t) = Lines.lines t) : convert t = t := by
  rw [convert_text, Lines.unify_plain t hr, h]
  split
  · rename_i hnil
    have hrest := Lines.joined_lines t
    rw [hnil, List.nil_append] at hrest
    split at hrest
    · exact absurd hrest.symm hbreak
    · exact hrest
  · exact Lines.joined_lines t

theorem convert_ne_break (t : Text) : convert t ≠ ['\n'] := by
  by_cases ht : Lines.unify t = ['\n']
  · simp [convert_break ht]
  · intro hbreak
    have hlines := lines_convert ht
    rw [hbreak] at hlines
    exact ht (Lines.eq_break ((converts_lines _).eq_empty hlines.symm))

/-- Converting a converted text changes nothing. -/
theorem convert_convert (t : Text) : convert (convert t) = convert t := by
  by_cases ht : Lines.unify t = ['\n']
  · rw [convert_break ht]
    rfl
  · apply convert_of_lines (convert_plain t) (convert_ne_break t)
    have hlines := lines_convert ht
    rw [Lines.unify_plain _ (convert_plain t)] at hlines
    rw [hlines, convertLines_convertLines]

/-- The text of a docstring may begin with quotes or a hash sign. -/
example : convert "\"\"\"\n# a\n\"\"\"\"\nvar x = \"\"\"\n\"\"\"\n".toList =
    "# # a\n# \"\nvar x = \"\"\"\n\"\"\"\n".toList := by decide

end Docstring

end ScriptOrder
