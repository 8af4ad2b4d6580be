import Mathlib.Data.List.Basic
import ScriptOrder.Proofs.Conversion

/-!
# The text of a conversion

The conversion works on lines, and its text is cut into the lines it wrote. One
text is apart: of a single empty line nothing is left.
-/

set_option autoImplicit false

namespace ScriptOrder

namespace Lines

theorem lines_unlines_append {init : List Line} (h : ∀ l ∈ init, '\n' ∉ l) (t : Text) :
    lines (unlines init ++ t) = init ++ lines t := by
  induction init with
  | nil => rfl
  | cons l init ih =>
    have hrest := ih fun m hm => h m (by simp [hm])
    calc lines (unlines (l :: init) ++ t) = lines (l ++ '\n' :: (unlines init ++ t)) := by
          simp [unlines]
      _ = l :: lines (unlines init ++ t) := lines_break l (h l (by simp)) _
      _ = l :: init ++ lines t := by rw [hrest, List.cons_append]

theorem lines_single {l : Line} (hne : l ≠ []) (h : '\n' ∉ l) : lines l = [l] := by
  induction l with
  | nil => exact absurd rfl hne
  | cons c l ih =>
    obtain ⟨hc, hl⟩ := not_or.mp (mt List.mem_cons.mpr h)
    rw [lines, if_neg (Ne.symm hc)]
    cases l with
    | nil => rfl
    | cons d l => rw [ih (by simp) hl]

theorem joined_break {ls : List Line} (h : ls ≠ []) : joined ls ++ ['\n'] = unlines ls := by
  obtain ⟨init, l, rfl⟩ := (List.eq_nil_or_concat ls).resolve_left h
  rw [List.concat_eq_append, joined_concat]
  simp [unlines]

theorem endsInBreak_unlines {ls : List Line} (h : ls ≠ []) : endsInBreak (unlines ls) = true := by
  rw [← joined_break h]
  simp [endsInBreak]

theorem endsInBreak_append {rest : Text} (hne : rest ≠ []) (h : '\n' ∉ rest) (t : Text) :
    endsInBreak (t ++ rest) = false := by
  rw [endsInBreak, List.getLast?_append_of_ne_nil _ hne, decide_eq_false_iff_not]
  exact fun hlast => h (List.mem_of_getLast? hlast)

theorem joined_eq_nil_iff (ls : List Line) : joined ls = [] ↔ ls = [] ∨ ls = [[]] := by
  rcases List.eq_nil_or_concat ls with rfl | ⟨init, l, rfl⟩
  · simp [joined]
  · rw [List.concat_eq_append, joined_concat]
    cases init <;> simp [unlines]

theorem exists_rest (t : Text) : ∃ (init : List Line) (l : Line), t = unlines init ++ l ∧
    (∀ m ∈ init, '\n' ∉ m) ∧ '\n' ∉ l := by
  induction t with
  | nil => exact ⟨[], [], rfl, by simp, by simp⟩
  | cons c t ih =>
    obtain ⟨init, l, rfl, hinit, hl⟩ := ih
    by_cases hc : c = '\n'
    · exact ⟨[] :: init, l, by simp [unlines, hc], by simpa using hinit, hl⟩
    · cases init with
      | nil => exact ⟨[], c :: l, rfl, by simp, by simp [Ne.symm hc, hl]⟩
      | cons m init =>
        rw [List.forall_mem_cons] at hinit
        refine ⟨(c :: m) :: init, l, rfl, ?_, hl⟩
        rw [List.forall_mem_cons]
        exact ⟨by simp [Ne.symm hc, hinit.1], hinit.2⟩

theorem lines_last {t : Text} (h : endsInBreak t = false) : ∀ l ∈ (lines t).getLast?, l ≠ [] := by
  obtain ⟨init, rest, rfl, hinit, hrest⟩ := exists_rest t
  rw [lines_unlines_append hinit]
  by_cases hnil : rest = []
  · have hinit : init = [] := by
      by_contra hne
      rw [hnil, List.append_nil, endsInBreak_unlines hne] at h
      exact absurd h (by decide)
    simp [hnil, hinit, lines]
  · rw [lines_single hnil hrest]
    simpa using hnil

theorem eq_break {t : Text} (h : lines t = [[]]) : t = ['\n'] := by
  obtain ⟨init, rest, rfl, hinit, hrest⟩ := exists_rest t
  rw [lines_unlines_append hinit] at h
  by_cases hnil : rest = []
  · have hone : init = [[]] := by simpa [hnil, lines] using h
    rw [hnil, hone]
    rfl
  · rw [lines_single hnil hrest] at h
    have hsplit : init ++ [rest] = [] ++ [[]] := h
    have hlast : [rest] = [[]] := List.append_inj_right' hsplit rfl
    exact absurd (List.singleton_inj.mp hlast) hnil

theorem lines_joined {ls : List Line} (hne : ls ≠ []) (hplain : ∀ l ∈ ls, '\n' ∉ l) (ended : Bool)
    (hlast : ended = false → ∀ l ∈ ls.getLast?, l ≠ []) :
    lines (joined ls ++ if ended then ['\n'] else []) = ls := by
  cases ended with
  | true =>
    rw [if_pos rfl, joined_break hne]
    exact lines_unlines ls hplain
  | false =>
    obtain ⟨init, l, rfl⟩ := (List.eq_nil_or_concat ls).resolve_left hne
    have hl : l ≠ [] := hlast rfl l (by simp)
    rw [List.concat_eq_append] at hplain ⊢
    rw [List.forall_mem_append] at hplain
    rw [joined_concat, if_neg Bool.false_ne_true, List.append_nil, lines_unlines_append hplain.1,
      lines_single hl (hplain.2 l (by simp))]

end Lines

namespace Docstring

theorem converts_lines (ls : List Line) : Converts .outside ls (convertLines ls)
    (Reading.Enclosure.outside.afterAll ls) := converts_from (by simp) ls

theorem convert_text (t : Text) : convert t =
    if Lines.joined (convertLines (Lines.lines (Lines.unify t))) = [] then []
    else Lines.joined (convertLines (Lines.lines (Lines.unify t))) ++
      if Lines.endsInBreak (Lines.unify t) then ['\n'] else [] := by
  rw [convert]
  split
  · rename_i hnil
    rw [if_pos hnil]
  · rename_i hsome
    rw [if_neg hsome]
    split <;> simp

theorem convert_plain (t : Text) : '\r' ∉ convert t := by
  have hjoined := Lines.joined_no_return ((converts_lines _).plain (Lines.lines_plain t))
  rw [convert_text]
  split
  · simp
  · rw [List.mem_append, not_or]
    refine ⟨hjoined, ?_⟩
    split <;> simp

theorem lines_convert {t : Text} (h : Lines.unify t ≠ ['\n']) :
    Lines.lines (Lines.unify (convert t)) = convertLines (Lines.lines (Lines.unify t)) := by
  have hconverts := converts_lines (Lines.lines (Lines.unify t))
  have hplain := hconverts.plain (Lines.lines_plain t)
  rw [Lines.unify_plain _ (convert_plain t), convert_text]
  split
  · rename_i hnil
    rcases (Lines.joined_eq_nil_iff _).mp hnil with hnone | hempty
    · rw [hnone]
      rfl
    · exact absurd (Lines.eq_break (hconverts.eq_empty hempty)) h
  · rename_i hsome
    apply Lines.lines_joined
    · intro hnone
      rw [hnone] at hsome
      exact hsome rfl
    · exact fun l hl => (hplain l hl).1
    · exact fun hends => hconverts.last_filled (Lines.lines_last hends)

theorem convert_break {t : Text} (h : Lines.unify t = ['\n']) : convert t = [] := by
  rw [convert_text, h, if_pos]
  decide

theorem convert_unlines {ls : List Line} (hplain : ∀ l ∈ ls, Lines.Plain l) (hne : ls ≠ [[]]) :
    convert (Lines.unlines ls) = Lines.unlines (convertLines ls) := by
  have hconverts := converts_lines ls
  rw [convert_text, Lines.unify_plain _ (Lines.unlines_no_return ls hplain),
    Lines.lines_unlines ls fun l hl => (hplain l hl).1]
  by_cases hnil : ls = []
  · rw [hnil]
    rfl
  · have hsome : convertLines ls ≠ [] := mt hconverts.eq_nil_iff.mp hnil
    have hjoined : Lines.joined (convertLines ls) ≠ [] := by
      rw [Ne, Lines.joined_eq_nil_iff, not_or]
      exact ⟨hsome, fun hempty => hne (hconverts.eq_empty hempty)⟩
    rw [if_neg hjoined, if_pos (Lines.endsInBreak_unlines hnil), Lines.joined_break hsome]

end Docstring

end ScriptOrder
