import Mathlib.Data.List.Basic
import ScriptOrder.Lines

/-!
# Lines without breaks

The lines that a unified text is cut into hold no break, and a text put
together from such lines is cut into the same lines again.
-/

set_option autoImplicit false

namespace ScriptOrder.Lines

def Plain (l : Line) : Prop := '\n' ∉ l ∧ '\r' ∉ l

theorem lines_no_newline (t : Text) : ∀ l ∈ lines t, '\n' ∉ l := by
  induction t with
  | nil => simp [lines]
  | cons c rest ih =>
    intro l hl
    by_cases hc : c = '\n'
    · simp only [lines, if_pos hc, List.mem_cons] at hl
      rcases hl with rfl | hl
      · simp
      · exact ih l hl
    · simp only [lines, if_neg hc] at hl
      split at hl
      · simp only [List.mem_singleton] at hl
        subst hl
        simpa using Ne.symm hc
      · rename_i line others heq
        rw [heq] at ih
        rcases List.mem_cons.mp hl with rfl | hl
        · simpa [Ne.symm hc] using ih line (by simp)
        · exact ih l (by simp [hl])

theorem lines_subset (t : Text) : ∀ l ∈ lines t, l ⊆ t := by
  induction t with
  | nil => simp [lines]
  | cons c rest ih =>
    intro l hl
    by_cases hc : c = '\n'
    · simp only [lines, if_pos hc, List.mem_cons] at hl
      rcases hl with rfl | hl
      · simp
      · exact List.Subset.trans (ih l hl) (List.subset_cons_self c rest)
    · simp only [lines, if_neg hc] at hl
      split at hl
      · simp only [List.mem_singleton] at hl
        subst hl
        simp
      · rename_i line others heq
        rw [heq] at ih
        rcases List.mem_cons.mp hl with rfl | hl
        · exact List.cons_subset_cons c (ih line (by simp))
        · exact List.Subset.trans (ih l (by simp [hl])) (List.subset_cons_self c rest)

theorem unify_no_return (t : Text) : '\r' ∉ unify t := by
  intro h
  obtain ⟨c, -, hc⟩ := List.mem_map.mp h
  by_cases hr : c = '\r'
  · simp [hr] at hc
  · rw [if_neg hr] at hc
    exact hr hc

theorem lines_plain (t : Text) : ∀ l ∈ lines (unify t), Plain l := fun l hl =>
  ⟨lines_no_newline _ l hl, fun h => unify_no_return t (lines_subset _ l hl h)⟩

theorem joinPairs_plain (t : Text) (h : '\r' ∉ t) : joinPairs t = t := by
  induction t with
  | nil => rfl
  | cons c rest ih =>
    obtain ⟨hc, hrest⟩ := not_or.mp (mt List.mem_cons.mpr h)
    rw [joinPairs]
    · rw [ih hrest]
    · rintro _ rfl
      exact fun _ => hc rfl

theorem unify_plain (t : Text) (h : '\r' ∉ t) : unify t = t := by
  rw [unify, joinPairs_plain t h]
  conv_rhs => rw [← List.map_id t]
  apply List.map_congr_left
  intro c hc
  have hr : c ≠ '\r' := fun heq => h (heq ▸ hc)
  simp [hr]

theorem lines_break (l : Line) (h : '\n' ∉ l) (t : Text) :
    lines (l ++ '\n' :: t) = l :: lines t := by
  induction l with
  | nil => simp [lines]
  | cons c l ih =>
    obtain ⟨hc, hl⟩ := not_or.mp (mt List.mem_cons.mpr h)
    simp [lines, Ne.symm hc, ih hl]

theorem lines_unlines (ls : List Line) (h : ∀ l ∈ ls, '\n' ∉ l) : lines (unlines ls) = ls := by
  induction ls with
  | nil => rfl
  | cons l ls ih =>
    have hrest := ih fun m hm => h m (by simp [hm])
    calc lines (unlines (l :: ls)) = lines (l ++ '\n' :: unlines ls) := by simp [unlines]
      _ = l :: lines (unlines ls) := lines_break l (h l (by simp)) _
      _ = l :: ls := by rw [hrest]

theorem unlines_no_return (ls : List Line) (h : ∀ l ∈ ls, Plain l) : '\r' ∉ unlines ls := by
  intro hr
  obtain ⟨l, hl, hrl⟩ := List.mem_flatMap.mp hr
  rcases List.mem_append.mp hrl with hrl | hrl
  · exact (h l hl).2 hrl
  · simp at hrl

theorem lines_unify_unlines (ls : List Line) (h : ∀ l ∈ ls, Plain l) :
    lines (unify (unlines ls)) = ls := by
  rw [unify_plain _ (unlines_no_return ls h)]
  exact lines_unlines ls fun l hl => (h l hl).1

end ScriptOrder.Lines
