import Mathlib.Data.List.Basic
import ScriptOrder.Proofs.ConvertedText

/-!
# Breaks of two styles

Giving a text the breaks of another one is undone by unifying it. What reads the
unified text only, and does not mind a final break, gives the same for all texts
with one settled form.
-/

set_option autoImplicit false

namespace ScriptOrder.Lines

theorem unify_unify (t : Text) : unify (unify t) = unify t := unify_plain _ (unify_no_return t)

theorem joinPairs_pairs {t : Text} (h : '\r' ∉ t) :
    joinPairs (t.flatMap fun c => if c = '\n' then ['\r', '\n'] else [c]) = t := by
  induction t with
  | nil => rfl
  | cons c t ih =>
    obtain ⟨hc, ht⟩ := not_or.mp (mt List.mem_cons.mpr h)
    by_cases hn : c = '\n'
    · simp [hn, joinPairs, ih ht]
    · rw [List.flatMap_cons, if_neg hn, List.singleton_append, joinPairs, ih ht]
      rintro _ rfl
      exact absurd rfl hc

theorem unify_restyle (before : Text) {t : Text} (h : '\r' ∉ t) : unify (restyle before t) = t := by
  rw [restyle]
  split
  · have hplain := unify_plain t h
    rw [unify, joinPairs_plain t h] at hplain
    rw [unify, joinPairs_pairs h, hplain]
  · exact unify_plain t h

theorem settled_restyle (before : Text) {t : Text} (h : '\r' ∉ t) :
    settled (restyle before t) = settled t := by
  rw [settled, settled, unify_restyle before h, unify_plain t h]

theorem endsInBreak_break (t : Text) : endsInBreak (t ++ ['\n']) = true := by simp [endsInBreak]

theorem settled_break {t : Text} (h : '\r' ∉ t) : settled (t ++ ['\n']) = t := by
  have hplain : '\r' ∉ t ++ ['\n'] := by simpa using h
  rw [settled, unify_plain _ hplain, dropFinalBreak, endsInBreak_break, if_pos rfl,
    List.dropLast_concat]

theorem settled_unended {t : Text} (h : endsInBreak (unify t) = false) : settled t = unify t := by
  rw [settled, dropFinalBreak, h, if_neg Bool.false_ne_true]

theorem settled_ended {t : Text} (h : endsInBreak (unify t) = true) :
    unify t = settled t ++ ['\n'] := by
  have hlast : (unify t).getLast? = some '\n' := by simpa [endsInBreak] using h
  obtain ⟨init, hinit⟩ := List.getLast?_eq_some_iff.mp hlast
  rw [settled, dropFinalBreak, h, if_pos rfl, hinit, List.dropLast_concat]

/-- The settled form decides what is read from a unified text without regard to
a final break. -/
theorem settled_congr {α : Type} {f : Text → α} (hunify : ∀ t, f (unify t) = f t)
    (hbreak : ∀ t, '\r' ∉ t → endsInBreak t = false → f (t ++ ['\n']) = f t) {x y : Text}
    (h : settled x = settled y) : f x = f y := by
  have hended {x y : Text} (h : settled x = settled y) (hx : endsInBreak (unify x) = true)
      (hy : endsInBreak (unify y) = false) : f x = f y := by
    rw [← hunify x, ← hunify y, settled_ended hx, h, settled_unended hy]
    exact hbreak _ (unify_no_return y) hy
  cases hx : endsInBreak (unify x) with
  | true =>
    cases hy : endsInBreak (unify y) with
    | true => rw [← hunify x, ← hunify y, settled_ended hx, settled_ended hy, h]
    | false => exact hended h hx hy
  | false =>
    cases hy : endsInBreak (unify y) with
    | true => exact (hended h.symm hy hx).symm
    | false => rw [← hunify x, ← hunify y, ← settled_unended hx, ← settled_unended hy, h]

theorem endsInBreak_joined {ls : List Line} (hplain : ∀ l ∈ ls, '\n' ∉ l)
    (hlast : ∀ l ∈ ls.getLast?, l ≠ []) : endsInBreak (joined ls) = false := by
  rcases List.eq_nil_or_concat ls with rfl | ⟨init, l, rfl⟩
  · rfl
  · rw [List.concat_eq_append] at hplain hlast ⊢
    rw [joined_concat]
    exact endsInBreak_append (hlast l (by simp)) (hplain l (by simp)) _

theorem lines_final_break {t : Text} (hne : t ≠ []) (h : endsInBreak t = false) :
    lines (t ++ ['\n']) = lines t := by
  obtain ⟨init, rest, rfl, hinit, hrest⟩ := exists_rest t
  have hfilled : rest ≠ [] := by
    rintro rfl
    rw [List.append_nil] at hne h
    have hlines : init ≠ [] := fun hnil => hne (by rw [hnil]; rfl)
    exact absurd (endsInBreak_unlines hlines) (by simp [h])
  rw [List.append_assoc, lines_unlines_append hinit, lines_unlines_append hinit,
    lines_break rest hrest, lines_single hfilled hrest]
  rfl

end ScriptOrder.Lines
