import Mathlib.Data.List.Basic
import ScriptOrder.Block

/-!
# Stable order by a key

Two lists that are ordered by a key and have the same elements at each key, in
the same order, are equal. Sorting by merging keeps the elements at each key
in their order, so it is the only ordered list that does.
-/

set_option autoImplicit false

namespace ScriptOrder.StableSort

variable {α : Type}

def byKey (key : α → Nat) (a b : α) : Bool := decide (key a ≤ key b)

def sorted (key : α → Nat) (l : List α) : List α := l.mergeSort (byKey key)

def atKey (key : α → Nat) (k : Nat) (l : List α) : List α := l.filter fun a => key a = k

variable (key : α → Nat)

theorem byKey_trans (a b c : α) (hab : byKey key a b = true) (hbc : byKey key b c = true) :
    byKey key a c = true := by
  simp only [byKey, decide_eq_true_eq] at *
  omega

theorem byKey_total (a b : α) : (byKey key a b || byKey key b a) = true := by
  simp only [byKey, Bool.or_eq_true, decide_eq_true_eq]
  omega

theorem sorted_perm (l : List α) : (sorted key l).Perm l := List.mergeSort_perm _ _

theorem mem_sorted {a : α} {l : List α} : a ∈ sorted key l ↔ a ∈ l :=
  (sorted_perm key l).mem_iff

theorem sorted_pairwise (l : List α) : (sorted key l).Pairwise fun a b => key a ≤ key b := by
  simpa [sorted, byKey] using List.pairwise_mergeSort (byKey_trans key) (byKey_total key) l

theorem sorted_of_pairwise {l : List α} (h : l.Pairwise fun a b => key a ≤ key b) :
    sorted key l = l := by
  apply List.mergeSort_of_pairwise
  simpa [byKey] using h

theorem atKey_sorted (k : Nat) (l : List α) : atKey key k (sorted key l) = atKey key k l := by
  have hpair : (atKey key k l).Pairwise fun a b => byKey key a b = true := by
    apply List.Pairwise.imp_of_mem (R := fun _ _ => True)
    · intro a b ha hb _
      have hka : key a = k := by simpa using (List.mem_filter.mp ha).2
      have hkb : key b = k := by simpa using (List.mem_filter.mp hb).2
      simp [byKey, hka, hkb]
    · exact List.pairwise_of_forall fun _ _ => trivial
  have hsub : (atKey key k l).Sublist (sorted key l) :=
    List.sublist_mergeSort (byKey_trans key) (byKey_total key) hpair List.filter_sublist
  have hfilter : (atKey key k l).Sublist (atKey key k (sorted key l)) := by
    simpa [atKey, List.filter_filter] using hsub.filter fun a => decide (key a = k)
  exact (hfilter.eq_of_length ((sorted_perm key l).filter _).length_eq.symm).symm

theorem eq_of_atKey {l m : List α} (hl : l.Pairwise fun a b => key a ≤ key b)
    (hm : m.Pairwise fun a b => key a ≤ key b) (h : ∀ k, atKey key k l = atKey key k m) : l = m := by
  induction l generalizing m with
  | nil =>
    cases m with
    | nil => rfl
    | cons b m => simpa [atKey] using h (key b)
  | cons a l ih =>
    cases m with
    | nil => simpa [atKey] using h (key a)
    | cons b m =>
      rw [List.pairwise_cons] at hl hm
      have hba : key b ≤ key a := by
        have ha : a ∈ atKey key (key a) (b :: m) := h (key a) ▸ by simp [atKey]
        rcases List.mem_cons.mp (List.mem_filter.mp ha).1 with rfl | ha
        · exact Nat.le_refl _
        · exact hm.1 a ha
      have hab : key a ≤ key b := by
        have hb : b ∈ atKey key (key b) (a :: l) := (h (key b)).symm ▸ by simp [atKey]
        rcases List.mem_cons.mp (List.mem_filter.mp hb).1 with rfl | hb
        · exact Nat.le_refl _
        · exact hl.1 b hb
      have hkey : key a = key b := by omega
      have hhead : a = b := by
        have := h (key a)
        simp only [atKey, List.filter_cons, hkey, decide_true, if_true] at this
        exact (List.cons.inj this).1
      subst hhead
      refine congrArg (a :: ·) (ih hl.2 hm.2 fun k => ?_)
      have hk := h k
      by_cases hak : key a = k
      · simpa [atKey, List.filter_cons, hak] using hk
      · simpa [atKey, List.filter_cons, hak] using hk

theorem eq_sorted {l m : List α} (hl : l.Pairwise fun a b => key a ≤ key b)
    (h : ∀ k, atKey key k l = atKey key k m) : l = sorted key m :=
  eq_of_atKey key hl (sorted_pairwise key m) fun k => by rw [h, atKey_sorted]

section Expand

variable {β : Type} (mark : β → Nat) (f : α → List β)

theorem atKey_flatMap {l : List α} (h : ∀ a ∈ l, ∀ b ∈ f a, mark b = key a) (k : Nat) :
    atKey mark k (l.flatMap f) = (atKey key k l).flatMap f := by
  induction l with
  | nil => rfl
  | cons a l ih =>
    have hrest := ih fun b hb => h b (by simp [hb])
    simp only [atKey] at hrest ⊢
    rw [List.flatMap_cons, List.filter_append, hrest, List.filter_cons]
    by_cases ha : key a = k
    · have hall : (f a).filter (fun b => mark b = k) = f a := by
        apply List.filter_eq_self.mpr
        intro b hb
        simp [h a (by simp) b hb, ha]
      simp [ha, hall]
    · have hnone : (f a).filter (fun b => mark b = k) = [] := by
        apply List.filter_eq_nil_iff.mpr
        intro b hb
        simp [h a (by simp) b hb, ha]
      simp [ha, hnone]

theorem sorted_flatMap {l : List α} (h : ∀ a ∈ l, ∀ b ∈ f a, mark b = key a) :
    (sorted key l).flatMap f = sorted mark (l.flatMap f) := by
  have hmem : ∀ a ∈ sorted key l, ∀ b ∈ f a, mark b = key a := by
    intro a ha
    exact h a ((sorted_perm key l).mem_iff.mp ha)
  apply eq_sorted
  · rw [List.pairwise_flatMap]
    constructor
    · intro a ha
      apply List.pairwise_of_forall_mem_list
      intro b hb c hc
      exact Nat.le_of_eq ((hmem a ha b hb).trans (hmem a ha c hc).symm)
    · apply (sorted_pairwise key l).imp_of_mem
      intro a a' ha ha' hle b hb c hc
      rw [hmem a ha b hb, hmem a' ha' c hc]
      exact hle
  · intro k
    rw [atKey_flatMap key mark f hmem, atKey_flatMap key mark f h, atKey_sorted]

end Expand

theorem sorted_concat (l : List α) (a : α) (h : ∀ b ∈ l, key b ≤ key a) :
    sorted key (l ++ [a]) = sorted key l ++ [a] := by
  symm
  apply eq_sorted
  · rw [List.pairwise_append]
    refine ⟨sorted_pairwise key l, by simp, ?_⟩
    intro b hb c hc
    obtain rfl := List.mem_singleton.mp hc
    exact h b ((sorted_perm key l).mem_iff.mp hb)
  · intro k
    have hl := atKey_sorted key k l
    simp only [atKey, List.filter_append] at hl ⊢
    rw [hl]

/-- Neighbours with different keys may be sorted from either order. -/
theorem sorted_swap {a b : α} (h : key a ≠ key b) (l m : List α) :
    sorted key (l ++ a :: b :: m) = sorted key (l ++ b :: a :: m) := by
  apply eq_sorted key (sorted_pairwise key _)
  intro k
  rw [atKey_sorted]
  simp only [atKey, List.filter_append, List.filter_cons]
  by_cases ha : key a = k
  · have hb : key b ≠ k := fun hb => h (ha.trans hb.symm)
    simp [ha, hb]
  · simp [ha]

end ScriptOrder.StableSort
