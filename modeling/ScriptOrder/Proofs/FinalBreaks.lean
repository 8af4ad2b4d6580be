import Mathlib.Data.List.Forall2
import ScriptOrder.Proofs.BreakStyles

/-!
# Final breaks

Two texts are near if they differ by no more than the style of their breaks and
one final break. Settled forms are compared more strictly: of a text with two final
breaks one is dropped, so it does not count as the text that lost one of them.
-/

set_option autoImplicit false

namespace ScriptOrder.Lines

inductive Sign.Alike : Sign → Sign → Prop where
  | letter (c : Char) : Alike (.letter c) (.letter c)
  | ending (a b : Break) : Alike (.ending a) (.ending b)

/-- The texts differ at most in the style of their breaks. -/
def Alike (x y : Text) : Prop := List.Forall₂ Sign.Alike (signs x) (signs y)

variable {s s' : Sign} {ss ss' : List Sign} {x y z u : Text}

theorem Sign.alike_iff (h : s ≠ .letter '\n') (h' : s' ≠ .letter '\n') :
    s.Alike s' ↔ s.unified = s'.unified := by
  constructor
  · intro hs
    cases hs <;> rfl
  · intro heq
    cases s with
    | letter c =>
      cases s' with
      | letter d =>
        obtain rfl : c = d := heq
        exact .letter c
      | ending b => exact absurd (congrArg Sign.letter heq) h
    | ending a =>
      cases s' with
      | letter d => exact absurd (congrArg Sign.letter heq.symm) h'
      | ending b => exact .ending a b

theorem Legible.ne_letter (h : Legible ss) (hs : s ∈ ss) : s ≠ .letter '\n' := by
  rintro rfl
  exact h.letter_ne hs rfl

theorem Legible.alike_iff (h : Legible ss) (h' : Legible ss') :
    List.Forall₂ Sign.Alike ss ss' ↔ ss.map Sign.unified = ss'.map Sign.unified := by
  induction ss generalizing ss' with
  | nil => cases ss' <;> simp
  | cons s ss ih =>
    cases ss' with
    | nil => simp
    | cons s' ss' =>
      have hhead : s.Alike s' ↔ s.unified = s'.unified :=
        Sign.alike_iff (h.ne_letter (by simp)) (h'.ne_letter (by simp))
      rw [List.forall₂_cons, ih h.tail h'.tail, hhead, List.map_cons, List.map_cons,
        List.cons.injEq]

theorem alike_iff (x y : Text) : Alike x y ↔ unify x = unify y := by
  rw [Alike, (legible_signs x).alike_iff (legible_signs y), unify_signs, unify_signs]

theorem Legible.front (h : Legible (ss ++ ss')) : Legible ss := by
  induction ss with
  | nil => trivial
  | cons s ss ih =>
    match s with
    | .letter c => exact ⟨h.1, h.2.1, ih h.tail⟩
    | .ending .crlf => exact ih h.tail
    | .ending .cr =>
      refine ⟨?_, ih h.tail⟩
      cases ss with
      | nil => simp
      | cons s ss => exact h.1
    | .ending .lf => exact ih h.tail

end ScriptOrder.Lines
