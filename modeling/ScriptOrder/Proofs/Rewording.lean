import Mathlib.Data.List.Basic
import ScriptOrder.Proofs.Conversion

/-!
# Marks of converted lines

Of marks the conversion changes comments only: where a docstring was, one run of
comments stands for another and neither is empty. What the organizer asks of
marks is the same before and after, and marks may be cut first and converted
then where no docstring is open.
-/

set_option autoImplicit false

namespace ScriptOrder
open Docstring Reading

namespace Marks

/-- Runs of comments in the first list are other runs in the second. -/
inductive Reworded : List Mark → List Mark → Prop
  | nil : Reworded [] []
  | keep (m : Mark) {ms ns : List Mark} : Reworded ms ns → Reworded (m :: ms) (m :: ns)
  | reword {us cs ms ns : List Mark} : Comments us → us ≠ [] → Comments cs → cs ≠ [] →
      Reworded ms ns → Reworded (us ++ ms) (cs ++ ns)

namespace Reworded

variable {ms ns : List Mark}

theorem refl (ms : List Mark) : Reworded ms ms := by
  induction ms with
  | nil => exact .nil
  | cons m ms ih => exact .keep m ih

theorem eq_nil_iff (h : Reworded ms ns) : ns = [] ↔ ms = [] := by
  cases h with
  | nil => rfl
  | keep m _ => simp
  | reword _ hu _ hc _ => simp [hu, hc]

theorem forall_iff (h : Reworded ms ns) (P : Reading → Prop) :
    (∀ m ∈ ns, P m.2) ↔ ∀ m ∈ ms, P m.2 := by
  have hrun (cs : List Mark) (hc : Comments cs) (hne : cs ≠ []) : (∀ m ∈ cs, P m.2) ↔ P .comment := by
    obtain ⟨c, rest, rfl⟩ := List.exists_cons_of_ne_nil hne
    constructor
    · intro hall
      exact hc c (by simp) ▸ hall c (by simp)
    · intro hcomment m hm
      exact (hc m hm).symm ▸ hcomment
  induction h with
  | nil => rfl
  | keep m _ ih =>
    rw [List.forall_mem_cons, List.forall_mem_cons]
    exact and_congr_right fun _ => ih
  | reword hu hune hc hcne _ ih =>
    rw [List.forall_mem_append, List.forall_mem_append, hrun _ hu hune, hrun _ hc hcne]
    exact and_congr_right fun _ => ih

theorem head (h : Reworded ms ns) : ns.head?.map Prod.snd = ms.head?.map Prod.snd := by
  cases h with
  | nil => rfl
  | keep m _ => rfl
  | reword hu hune hc hcne _ =>
    obtain ⟨u, us, rfl⟩ := List.exists_cons_of_ne_nil hune
    obtain ⟨c, cs, rfl⟩ := List.exists_cons_of_ne_nil hcne
    simp [hu u (by simp), hc c (by simp)]

theorem last (h : Reworded ms ns) : ns.getLast?.map Prod.snd = ms.getLast?.map Prod.snd := by
  induction h with
  | nil => rfl
  | @keep m ms ns hrest ih =>
    by_cases hnil : ms = []
    · rw [hnil, hrest.eq_nil_iff.mpr hnil]
    · rwa [List.getLast?_cons_of_ne_nil hnil,
        List.getLast?_cons_of_ne_nil (mt hrest.eq_nil_iff.mp hnil)]
  | @reword us cs ms ns hu hune hc hcne hrest ih =>
    by_cases hnil : ms = []
    · obtain ⟨us, u, rfl⟩ := (List.eq_nil_or_concat us).resolve_left hune
      obtain ⟨cs, c, rfl⟩ := (List.eq_nil_or_concat cs).resolve_left hcne
      simp [hnil, hrest.eq_nil_iff.mpr hnil, hu u (by simp), hc c (by simp)]
    · rwa [List.getLast?_append_of_ne_nil _ hnil,
        List.getLast?_append_of_ne_nil _ (mt hrest.eq_nil_iff.mp hnil)]

theorem countP (h : Reworded ms ns) {p : Reading → Bool} (hp : p .comment = false) :
    (ns.countP fun m => p m.2) = ms.countP fun m => p m.2 := by
  have hnone (cs : List Mark) (hc : Comments cs) : (cs.countP fun m => p m.2) = 0 := by
    rw [List.countP_eq_zero]
    intro m hm
    simp [hc m hm, hp]
  induction h with
  | nil => rfl
  | keep m _ ih => rw [List.countP_cons, List.countP_cons, ih]
  | reword hu _ hc _ _ ih =>
    rw [List.countP_append, List.countP_append, hnone _ hu, hnone _ hc, ih]

theorem eq_self (h : Reworded ms ns) (hms : ∀ m ∈ ms, m.2 ≠ .comment) : ns = ms := by
  induction h with
  | nil => rfl
  | keep m _ ih =>
    rw [List.forall_mem_cons] at hms
    rw [ih hms.2]
  | reword hu hune _ _ _ _ =>
    obtain ⟨u, us, rfl⟩ := List.exists_cons_of_ne_nil hune
    exact absurd (hu u (by simp)) (hms u (by simp))

theorem head_iff (h : Reworded ms ns) (P : Reading → Prop) :
    (∀ m ∈ ns.head?, P m.2) ↔ ∀ m ∈ ms.head?, P m.2 := by
  have hhead := h.head
  cases ms <;> cases ns <;> simp_all

theorem last_iff (h : Reworded ms ns) (P : Reading → Prop) :
    (∀ m ∈ ns.getLast?, P m.2) ↔ ∀ m ∈ ms.getLast?, P m.2 := by
  have hlast := h.last
  cases hm : ms.getLast? <;> cases hn : ns.getLast? <;> simp_all

theorem comments_iff (h : Reworded ms ns) : Comments ns ↔ Comments ms :=
  h.forall_iff (· = .comment)

theorem notes_iff (h : Reworded ms ns) : Notes ns ↔ Notes ms :=
  h.forall_iff fun r => r = .comment ∨ r = .blank

theorem undeclared_iff (h : Reworded ms ns) : Undeclared ns ↔ Undeclared ms :=
  h.forall_iff fun r => ∀ k, r ≠ .declaration k

theorem beginsFilled_iff (h : Reworded ms ns) : BeginsFilled ns ↔ BeginsFilled ms :=
  h.head_iff (· ≠ .blank)

theorem beginsUncommented_iff (h : Reworded ms ns) : BeginsUncommented ns ↔ BeginsUncommented ms :=
  h.head_iff (· ≠ .comment)

theorem endsFilled_iff (h : Reworded ms ns) : EndsFilled ns ↔ EndsFilled ms :=
  h.last_iff (· ≠ .blank)

theorem endsSolid_iff (h : Reworded ms ns) : EndsSolid ns ↔ EndsSolid ms :=
  h.last_iff fun r => r.isSolid = true

end Reworded

def marksIn (rules : Rulebook) (e : Enclosure) (ls : List Line) : List Mark :=
  ls.zip (ofLinesIn rules e ls)

variable {rules : Rulebook} {e f : Enclosure} {ms ns : List Mark}

theorem marksIn_append (e : Enclosure) (ls ks : List Line) : marksIn rules e (ls ++ ks) =
    marksIn rules e ls ++ marksIn rules (e.afterAll ls) ks := by
  rw [marksIn, ofLinesIn_append, List.zip_append (ofLinesIn_length rules e ls).symm]
  rfl

theorem map_marksIn (e : Enclosure) (ls : List Line) : (marksIn rules e ls).map Prod.fst = ls :=
  List.map_fst_zip (Nat.le_of_eq (ofLinesIn_length rules e ls).symm)

theorem Reads.eq_marksIn (h : Reads rules e ms f) : marksIn rules e (ms.map Prod.fst) = ms := by
  rw [marksIn, h.readings]
  exact (List.zip_of_prod rfl rfl).symm

theorem stays_comments {ls : List Line} (h : Stays e ls f) : Comments (marksIn rules e ls) := by
  induction ls generalizing e with
  | nil => exact comments_nil
  | cons l ls ih =>
    obtain ⟨rfl, hrest⟩ := h
    exact (comments_cons _ _).mpr ⟨rfl, ih hrest⟩

theorem spans_comments {unit : List Line} (h : Spans unit f) :
    Comments (marksIn rules .outside unit) := by
  obtain ⟨l, ls, rfl, hstart, hstays⟩ := h
  exact (comments_cons _ _).mpr ⟨inside_startsString hstart, stays_comments hstays⟩

theorem hash_comments {ls : List Line} (h : ∀ l ∈ ls, l.head? = some '#') :
    Comments (marksIn rules .outside ls) := by
  induction ls with
  | nil => exact comments_nil
  | cons l ls ih =>
    rw [List.forall_mem_cons] at h
    have hone : ∀ m ∈ [l], m.head? = some '#' := by simpa using h.1
    have hafter : Enclosure.outside.after l = .outside := afterAll_hash hone
    have hcomment : inside rules l .outside = .comment := by
      have hblank : ¬ isBlankLine l = true := by
        obtain ⟨rest, rfl⟩ := List.head?_eq_some_iff.mp h.1
        rw [isBlankLine, List.all_cons]
        simp [show CharClass.isBlank '#' = false by decide]
      rw [inside, ofLine, if_neg hblank, if_pos]
      simp [startsComment, h.1]
    refine (comments_cons _ _).mpr ⟨hcomment, ?_⟩
    rw [hafter]
    exact ih h.2

theorem reworded_of_converts {ls ks : List Line} (h : Converts e ls ks f) :
    Reworded (marksIn rules e ls) (marksIn rules e ks) := by
  induction h with
  | done e => exact .nil
  | kept _ _ _ ih => exact .keep _ ih
  | @replaced f unit ls ks hspans _ ih =>
    -- Both runs of comments leave the state outside, so the rest reads alike after them.
    have hcomments : Comments (marksIn rules .outside (comments unit)) :=
      hash_comments (comments_hash unit)
    rw [marksIn_append, marksIn_append, hspans.afterAll, afterAll_hash (comments_hash unit)]
    refine .reword (spans_comments hspans) ?_ hcomments ?_ ih
    · obtain ⟨l, rest, rfl, -⟩ := hspans
      rw [Ne, ← List.map_eq_nil_iff (f := Prod.fst), map_marksIn]
      simp
    · rw [Ne, ← List.map_eq_nil_iff (f := Prod.fst), map_marksIn]
      exact comments_ne_nil unit
  | unended _ => exact .refl _

def converted (rules : Rulebook) (e : Enclosure) (ms : List Mark) : List Mark :=
  marksIn rules e (convertFrom e (ms.map Prod.fst))

theorem converted_lines (e : Enclosure) (ms : List Mark) :
    (converted rules e ms).map Prod.fst = convertFrom e (ms.map Prod.fst) := map_marksIn e _

section

variable (he : e ≠ .inComment) (h : Reads rules e ms f)
include he h

theorem Reads.reworded : Reworded ms (converted rules e ms) := by
  have hwords : Reworded (marksIn rules e (ms.map Prod.fst)) (Marks.converted rules e ms) :=
    reworded_of_converts (converts_from he _)
  rwa [h.eq_marksIn] at hwords

theorem Reads.converted_append (hf : f ≠ .inComment) (ns : List Mark) :
    Marks.converted rules e (ms ++ ns) = Marks.converted rules e ms ++ Marks.converted rules f ns := by
  have hafter := (converts_from he (ms.map Prod.fst)).afterAll.2
  rw [h.afterAll] at hafter
  rw [Marks.converted, List.map_append, convertFrom_append he h.afterAll hf, marksIn_append, hafter]
  rfl

end

theorem Reads.converted_cons {m : Mark} (he : e ≠ .inComment) (h : Reads rules e (m :: ms) f)
    (hm : m.2 ≠ .comment) :
    Marks.converted rules e (m :: ms) = m :: Marks.converted rules (e.after m.1) ms := by
  have hone : Reads rules e [m] (e.after m.1) := ⟨h.1, rfl⟩
  have hafter : e.after m.1 ≠ .inComment := after_uncommented (h.1 ▸ hm)
  have hself : Marks.converted rules e [m] = [m] := (hone.reworded he).eq_self (by simpa using hm)
  have happend := hone.converted_append he hafter ms
  rwa [hself] at happend

theorem Closed.converted_append (hm : Closed rules ms) (ns : List Mark) :
    converted rules .outside (ms ++ ns) = converted rules .outside ms ++ converted rules .outside ns :=
  Reads.converted_append (by simp) hm (by simp) ns

theorem Closed.reworded (h : Closed rules ms) : Reworded ms (converted rules .outside ms) :=
  Reads.reworded (by simp) h

theorem Closed.converted_blanks (h : Closed rules ms) (hb : Blanks ms) :
    converted rules .outside ms = ms := h.reworded.eq_self fun m hm => by simp [hb m hm]

end Marks

end ScriptOrder
