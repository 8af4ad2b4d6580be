import Mathlib.Data.List.Basic

/-!
# Longest runs

A list begins with one longest run of a sort: the elements before the first one
that is not of the sort. Where a run ends is told by the head of what follows.
-/

set_option autoImplicit false

namespace ScriptOrder

variable {α : Type} {p : α → Bool} {run run' rest rest' : List α}

theorem takeWhile_run (hrun : ∀ x ∈ run, p x = true) (hrest : ∀ x ∈ rest.head?, p x = false) :
    (run ++ rest).takeWhile p = run := by
  rw [List.takeWhile_append_of_pos hrun]
  cases rest with
  | nil => simp
  | cons x rest => simp [hrest x (by simp)]

theorem dropWhile_run (hrun : ∀ x ∈ run, p x = true) (hrest : ∀ x ∈ rest.head?, p x = false) :
    (run ++ rest).dropWhile p = rest := by
  rw [List.dropWhile_append_of_pos hrun]
  cases rest with
  | nil => rfl
  | cons x rest => simp [hrest x (by simp)]

theorem run_unique (hrun : ∀ x ∈ run, p x = true) (hrun' : ∀ x ∈ run', p x = true)
    (hrest : ∀ x ∈ rest.head?, p x = false) (hrest' : ∀ x ∈ rest'.head?, p x = false)
    (h : run ++ rest = run' ++ rest') : run = run' ∧ rest = rest' := by
  have heq : run = run' := by
    rw [← takeWhile_run hrun hrest, ← takeWhile_run hrun' hrest', h]
  subst heq
  exact ⟨rfl, List.append_cancel_left h⟩

theorem exists_head_append {P : α → Prop} (h : ∃ x ∈ run.head?, P x) (rest : List α) :
    ∃ x ∈ (run ++ rest).head?, P x := by
  obtain ⟨x, hx, hp⟩ := h
  exact ⟨x, by simp [List.head?_append, Option.mem_def.mp hx], hp⟩

theorem forall_head {P : α → Prop} (h : ∃ x ∈ run.head?, P x) : ∀ x ∈ run.head?, P x := by
  obtain ⟨y, hy, hp⟩ := h
  intro x hx
  rwa [Option.mem_unique hx hy]

end ScriptOrder
