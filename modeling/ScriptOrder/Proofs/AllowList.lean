import Mathlib.Data.List.Nodup
import ScriptOrder.Proofs.Sheet
import ScriptOrder.Settings

/-!
# What the allow-list decides

A name is looked up in the allow-list only to settle the kind of a function that
the patterns file as a callback. Two rulebooks with the same patterns therefore
arrange a script alike if they agree on the names of these functions.
-/

set_option autoImplicit false

namespace ScriptOrder
open Marks

namespace Rulebook

variable {r r' : Rulebook}

theorem kind?_congr (h : r.rules = r'.rules) (l : Line) : r.kind? l = r'.kind? l := by
  rw [kind?, kind?, h]

theorem settle_congr {kind : Kind} {l : Line}
    (h : kind = .callback → ∀ name ∈ declaredName? l, r.allows name = r'.allows name) :
    r.settle kind l = r'.settle kind l := by
  by_cases hk : kind = .callback
  · subst hk
    cases hname : declaredName? l with
    | none => simp [settle, hname]
    | some name => simp [settle, hname, h rfl name hname]
  · cases kind <;> first | rfl | exact absurd rfl hk

end Rulebook

namespace Reading

variable {r r' : Rulebook}

theorem inside_congr (h : r.rules = r'.rules) (l : Line) (e : Enclosure) :
    inside r l e = inside r' l e := by
  cases e with
  | outside => simp only [inside, ofLine, Rulebook.kind?_congr h]
  | inComment => rfl
  | inLiteral => rfl

theorem ofLinesIn_congr (h : r.rules = r'.rules) (e : Enclosure) (ls : List Line) :
    ofLinesIn r e ls = ofLinesIn r' e ls := by
  induction ls generalizing e with
  | nil => rfl
  | cons l ls ih => rw [ofLinesIn, ofLinesIn, inside_congr h, ih]

end Reading

namespace Script

/-- The names of the functions that the patterns file as callbacks. -/
def callbackNames (s : Script) : Names :=
  s.marks.filterMap fun m => if m.2 = .declaration .callback then declaredName? m.1 else none

theorem mem_callbackNames {s : Script} {l : Line} {name : List Char}
    (hl : (l, .declaration .callback) ∈ s.marks) (hname : name ∈ declaredName? l) :
    name ∈ s.callbackNames := by
  apply List.mem_filterMap.mpr
  exact ⟨_, hl, by simpa using hname⟩

theorem marks_congr {r r' : Rulebook} (h : r.rules = r'.rules) (t : Text) :
    (ofText r t).marks = (ofText r' t).marks := by
  exact congrArg (List.zip (Lines.lines (Lines.unify t))) (Reading.ofLinesIn_congr h _ _)

end Script

namespace Outline

variable {r r' : Rulebook}

theorem passages_congr (o : Outline) (h : ∀ s ∈ o.sections, s.settled r = s.settled r') :
    o.passages r = o.passages r' := by
  have hmap : o.sections.map (Section.passage r) = o.sections.map (Section.passage r') := by
    apply List.map_congr_left
    intro s hs
    rw [Section.passage, Section.passage, h s hs]
  rw [passages, passages, hmap]

theorem head_mem {o : Outline} {s : Section} (hs : s ∈ o.sections) : s.head ∈ o.marks := by
  apply List.mem_append_left
  apply List.mem_flatMap.mpr
  exact ⟨s, hs, by simp [Section.marks, Section.rows]⟩

end Outline

theorem arrange_congr {r r' : Rulebook} {t : Text} (h : r.rules = r'.rules)
    (hnames : ∀ name ∈ (Script.ofText r t).callbackNames, r.allows name = r'.allows name) :
    arrange r t = arrange r' t := by
  obtain ⟨sh, hsh⟩ := Sheet.exists_sheet (Script.ofText r t).marks
  have heven : (Script.ofText r t).Even := Script.ofLines_even r _
  have heven' : (Script.ofText r' t).Even := Script.ofLines_even r' _
  have hmarks := hsh.symm
  have hmarks' : (Script.ofText r' t).marks = sh.marks := (Script.marks_congr h t).symm.trans hmarks
  have hsettled : ∀ s ∈ sh.outline.sections, s.settled r = s.settled r' := by
    intro s hs
    apply Rulebook.settle_congr
    intro hkind name hname
    apply hnames
    have hhead : (s.line, .declaration .callback) ∈ sh.marks := by
      rw [← hkind]
      exact List.mem_append_right _ (List.mem_append_right _ (Outline.head_mem hs))
    exact Script.mem_callbackNames (hmarks ▸ hhead) hname
  have htext : (arrange r t).text = (arrange r' t).text := by
    rw [Arrange.text_arranged hmarks, Arrange.text_arranged hmarks', Sheet.arranged, Sheet.arranged,
      Outline.passages_congr _ hsettled]
  have hremarks : (arrange r t).remarks = (arrange r' t).remarks := by
    show Arrange.remarks _ = Arrange.remarks _
    rw [Arrange.remarks, Arrange.remarks, Sheet.remarks_sheet heven sh hmarks,
      Sheet.remarks_sheet heven' sh hmarks']
    rfl
  calc arrange r t = ⟨(arrange r t).text, (arrange r t).remarks⟩ := rfl
    _ = ⟨(arrange r' t).text, (arrange r' t).remarks⟩ := by rw [htext, hremarks]

theorem pairwise_eraseDups {α : Type} [BEq α] [LawfulBEq α] {R : α → α → Prop}
    {as : List α}
    (h : as.Pairwise R) : as.eraseDups.Pairwise fun a b => R a b ∧ a ≠ b := by
  match as with
  | [] => simp
  | a :: as =>
    obtain ⟨ha, has⟩ := List.pairwise_cons.mp h
    rw [List.eraseDups_cons, List.pairwise_cons]
    refine ⟨?_, pairwise_eraseDups (has.filter fun b => !b == a)⟩
    intro b hb
    obtain ⟨hmem, hne⟩ := List.mem_filter.mp (List.mem_eraseDups.mp hb)
    exact ⟨ha b hmem, fun hab => by simp [hab] at hne⟩
termination_by as.length
decreasing_by exact Nat.lt_succ_of_le (List.length_filter_le _ _)

namespace Rulebook

theorem sortedCallbacks_ascending (r : Rulebook) :
    r.sortedCallbacks.Pairwise fun a b => List.le a b ∧ a ≠ b := by
  have htrans (a b c : List Char) (hab : decide (List.le a b) = true)
      (hbc : decide (List.le b c) = true) : decide (List.le a c) = true := by
    have hle : List.le a c := List.le_trans (of_decide_eq_true hab) (of_decide_eq_true hbc)
    exact decide_eq_true hle
  have htotal (a b : List Char) : (decide (List.le a b) || decide (List.le b a)) = true := by
    have hle : List.le a b ∨ List.le b a := List.le_total a b
    simpa using hle
  have hsorted := List.pairwise_mergeSort htrans htotal r.callbacks
  exact pairwise_eraseDups (hsorted.imp of_decide_eq_true)

theorem mem_sortedCallbacks (r : Rulebook) (name : List Char) :
    name ∈ r.sortedCallbacks ↔ r.allows name = true := by
  rw [sortedCallbacks, List.mem_eraseDups, List.mem_mergeSort, allows, List.contains_iff_mem]

theorem sortedCallbacks_congr {r r' : Rulebook} (h : ∀ name, r.allows name = r'.allows name) :
    r.sortedCallbacks = r'.sortedCallbacks := by
  have hasc := r.sortedCallbacks_ascending
  have hasc' := r'.sortedCallbacks_ascending
  have hmem (name : List Char) : name ∈ r.sortedCallbacks ↔ name ∈ r'.sortedCallbacks := by
    rw [mem_sortedCallbacks, mem_sortedCallbacks, h]
  have hperm : r.sortedCallbacks.Perm r'.sortedCallbacks :=
    (List.perm_ext_iff_of_nodup (hasc.imp And.right) (hasc'.imp And.right)).mpr hmem
  have hanti (a b : List Char) (hab : List.le a b) (hba : List.le b a) : a = b :=
    List.le_antisymm hab hba
  exact hperm.eq_of_pairwise (fun a b _ _ => hanti a b) (hasc.imp And.left) (hasc'.imp And.left)

end Rulebook

namespace Settings

variable {s s' : Settings}

/-- A name is allowed if the list that replaces the known callbacks has it, or
the known callbacks if none does, or the list added to them. -/
def Allows (s : Settings) (name : List Char) : Prop :=
  name ∈ s.builtinCallbacks.getD DefaultRules.engineCallbacks ∨ name ∈ s.extraCallbacks

instance (s : Settings) (name : List Char) : Decidable (s.Allows name) :=
  inferInstanceAs (Decidable (_ ∨ _))

theorem rulebook_eq (s : Settings) : s.rulebook = Rulebook.default.allowing s.callbacks := by
  rw [rulebook]
  split
  · rename_i hnone
    rw [Bool.and_eq_true, Option.isNone_iff_eq_none, List.isEmpty_iff] at hnone
    rw [callbacks, hnone.1, hnone.2, List.append_nil]
    rfl
  · rfl

theorem rules_rulebook (s : Settings) : s.rulebook.rules = Rulebook.default.rules := by
  rw [rulebook_eq]
  rfl

theorem allows_rulebook (s : Settings) (name : List Char) :
    s.rulebook.allows name = true ↔ s.Allows name := by
  rw [rulebook_eq, Rulebook.allows, List.contains_iff_mem]
  exact List.mem_append

theorem allows_congr {name : List Char} (h : s.Allows name ↔ s'.Allows name) :
    s.rulebook.allows name = s'.rulebook.allows name := by
  rw [Bool.eq_iff_iff, allows_rulebook, allows_rulebook, h]

/-- What settings say of callbacks counts through the set of the allowed names
only, and of that set only the names of functions filed as callbacks count. -/
theorem callbacks_count_by_name (s s' : Settings) :
    (∀ name, s.rulebook.allows name = true ↔ s.Allows name) ∧
    s.rulebook.rules = Rulebook.default.rules ∧
    ((∀ name, s.Allows name ↔ s'.Allows name) →
      s.rulebook.sortedCallbacks = s'.rulebook.sortedCallbacks ∧
        ∀ kind l, s.rulebook.settle kind l = s'.rulebook.settle kind l) ∧
    ∀ t, (∀ name ∈ (Script.ofText .default t).callbackNames, s.Allows name ↔ s'.Allows name) →
      arrange s.rulebook t = arrange s'.rulebook t := by
  refine ⟨s.allows_rulebook, s.rules_rulebook, ?_, ?_⟩
  · intro h
    have hall (name : List Char) : s.rulebook.allows name = s'.rulebook.allows name :=
      allows_congr (h name)
    exact ⟨Rulebook.sortedCallbacks_congr hall,
      fun _ _ => Rulebook.settle_congr fun _ name _ => hall name⟩
  · intro t h
    have htable : s.rulebook.rules = s'.rulebook.rules :=
      s.rules_rulebook.trans s'.rules_rulebook.symm
    apply arrange_congr htable
    intro name hname
    have hmarks := Script.marks_congr s.rules_rulebook t
    rw [Script.callbackNames, hmarks] at hname
    exact allows_congr (h name hname)

def replacing : Settings :=
  ⟨some ["_process".toList, "_process".toList], ["_helper".toList], false⟩

def processScript : Text := "func _process(d):\n\tpass\nfunc go():\n\tpass\n".toList

theorem processScript_alike :
    ¬ (default.Allows "_helper".toList ↔ replacing.Allows "_helper".toList) ∧
    (Script.ofText .default processScript).callbackNames = ["_process".toList] ∧
    arrange default.rulebook processScript = arrange replacing.rulebook processScript := by
  have hnames : (Script.ofText .default processScript).callbackNames = ["_process".toList] := by
    decide
  refine ⟨by decide, hnames, ?_⟩
  apply (callbacks_count_by_name default replacing).2.2.2
  rw [hnames]
  decide

end Settings

end ScriptOrder
