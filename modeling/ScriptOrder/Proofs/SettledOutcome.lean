import Mathlib.Data.List.Basic
import ScriptOrder.Proofs.Conservation
import ScriptOrder.Proofs.Positions
import ScriptOrder.Proofs.Restyling

/-!
# Breaks decide nothing

Two texts with one settled form differ in the style of their breaks and in one
final break. They are arranged alike, a check says the same of both, and what is
written for them has again one settled form.
-/

set_option autoImplicit false

namespace ScriptOrder

variable {x y : Text}

namespace Arrange

theorem arrange_unify (rules : Rulebook) (t : Text) :
    arrange rules (Lines.unify t) = arrange rules t := by
  rw [arrange, arrange, Script.ofText, Script.ofText, Lines.unify_unify]

theorem arrange_lines (rules : Rulebook) {t u : Text}
    (h : Lines.lines (Lines.unify t) = Lines.lines (Lines.unify u)) :
    arrange rules t = arrange rules u := by
  rw [arrange, arrange, Script.ofText, Script.ofText, h]

theorem arrange_break (rules : Rulebook) : arrange rules ['\n'] = arrange rules [] := by
  have hempty : (Script.ofText rules []).marks = [] := rfl
  have hblocks : blocks (Script.ofText rules ['\n']) = blocks (Script.ofText rules []) := rfl
  have hremarks : Arrange.remarks (Script.ofText rules ['\n']) =
      Arrange.remarks (Script.ofText rules []) := by
    rw [Arrange.remarks, Arrange.remarks]
    rfl
  have hnone : blocks (Script.ofText rules []) = [] := rfl
  have htext : Arrange.text (Script.ofText rules ['\n']) =
      Arrange.text (Script.ofText rules []) := by
    rw [text, text, hblocks, hnone, Block.sort, List.mergeSort_nil]
    rfl
  rw [arrange, arrange, htext, hremarks]

theorem arrange_settled (rules : Rulebook) (h : Lines.settled x = Lines.settled y) :
    arrange rules x = arrange rules y := by
  apply Lines.settled_congr (arrange_unify rules) _ h
  intro t hr hends
  by_cases hne : t = []
  · rw [hne]
    exact arrange_break rules
  · apply arrange_lines
    have hplain : '\r' ∉ t ++ ['\n'] := by simpa using hr
    rw [Lines.unify_plain _ hplain, Lines.unify_plain t hr, Lines.lines_final_break hne hends]

theorem text_plain (rules : Rulebook) (t : Text) : '\r' ∉ (arrange rules t).text := by
  let s := Script.ofText rules t
  obtain ⟨sh, hsh⟩ := Sheet.exists_sheet s.marks
  have hplain : ∀ l ∈ s.lines, Lines.Plain l := Lines.lines_plain t
  rw [text_arranged hsh.symm]
  exact Lines.unlines_no_return _ (Sheet.plain_arranged hplain sh hsh.symm)

end Arrange

namespace Docstring

theorem convert_unify (t : Text) : convert (Lines.unify t) = convert t := by
  rw [convert, convert, Lines.unify_unify]

theorem convert_settled (h : Lines.settled x = Lines.settled y) :
    Lines.settled (convert x) = Lines.settled (convert y) := by
  have hunify (t : Text) : Lines.settled (convert (Lines.unify t)) = Lines.settled (convert t) := by
    rw [convert_unify]
  apply Lines.settled_congr hunify _ h
  intro t hr hends
  by_cases hne : t = []
  · subst hne
    rfl
  · have hplain : '\r' ∉ t ++ ['\n'] := by simpa using hr
    have hconverts := converts_lines (Lines.lines t)
    have hlines : ∀ l ∈ convertLines (Lines.lines t), Lines.Plain l := by
      apply hconverts.plain
      rw [← Lines.unify_plain t hr]
      exact Lines.lines_plain t
    have hjoined := Lines.endsInBreak_joined (fun l hl => (hlines l hl).1)
      (hconverts.last_filled (Lines.lines_last hends))
    have hreturn := Lines.joined_no_return hlines
    rw [convert_text, convert_text, Lines.unify_plain _ hplain, Lines.unify_plain t hr,
      Lines.lines_final_break hne hends, hends, Lines.endsInBreak_break]
    split
    · rfl
    · rw [if_pos rfl, if_neg Bool.false_ne_true, List.append_nil, Lines.settled_break hreturn]
      rw [← Lines.unify_plain _ hreturn] at hjoined
      rw [Lines.settled_unended hjoined, Lines.unify_plain _ hreturn]

end Docstring

namespace Edits

theorem prepared_settled (converting : Bool) (h : Lines.settled x = Lines.settled y) :
    Lines.settled (prepared converting x) = Lines.settled (prepared converting y) := by
  cases converting with
  | true => exact Docstring.convert_settled h
  | false => exact h

end Edits

namespace Session
open Batch

variable {m m' : Machine} {r : Request} {s : Settings} {f : Text}

def made (r : Request) (s : Settings) (x : Text) : Text :=
  match r.subcommand with
  | .convert => Docstring.convert x
  | _ => (arrange s.rulebook (Edits.prepared (converts r s) x)).text

theorem editing_text (m : Machine) (name x : Text) : (editing m r s name x).text = made r s x := by
  rw [editing, made]
  cases r.subcommand <;> rfl

theorem made_plain (x : Text) : '\r' ∉ made r s x := by
  rw [made]
  split
  · exact Docstring.convert_plain x
  · exact Arrange.text_plain _ _

theorem made_settled (h : Lines.settled x = Lines.settled y) :
    Lines.settled (made r s x) = Lines.settled (made r s y) := by
  rw [made, made]
  split
  · exact Docstring.convert_settled h
  · rw [Arrange.arrange_settled _ (Edits.prepared_settled _ h)]

theorem settled_edited (m : Machine) (name x : Text) :
    Lines.settled (edited (editing m r s) name x) = Lines.settled (made r s x) := by
  rw [edited, editing_text]
  exact Lines.settled_restyle x (made_plain x)

theorem changes_settled (name : Text) (h : Lines.settled x = Lines.settled y) :
    changes (editing m r s) name x = changes (editing m' r s) name y := by
  rw [changes, changes, settled_edited, settled_edited, h, made_settled h]

theorem left_file (edit : Edit) (hf : f ≠ ['-']) (hx : m.files.text? f = some x) :
    (batch m false edit [f]).files.text? f =
      some (if changes edit f x && !m.files.refuses f then edited edit f x else x) := by
  rw [FileStore.text?, write_file edit hf hx]
  rfl

theorem left_settled (edit : Edit) (name x : Text) (refused : Bool) :
    Lines.settled (if changes edit name x && !refused then edited edit name x else x) =
      Lines.settled (if refused then x else edited edit name x) := by
  cases refused with
  | true => simp
  | false =>
    cases hc : changes edit name x with
    | true => rfl
    | false => simpa [changes] using hc

/-- The runs of one request on two machines, whose file `f` holds the texts `x`
and `y`, come to the same. -/
structure SameOutcome (m m' : Machine) (r : Request) (f x y : Text) : Prop where
  arranged : ∀ rules converting,
    arrange rules (Edits.prepared converting x) = arrange rules (Edits.prepared converting y)
  checked :
    (answer m (.run (r.asking true [f]))).stdout = (answer m' (.run (r.asking true [f]))).stdout ∧
    (answer m (.run (r.asking true [f]))).code = (answer m' (.run (r.asking true [f]))).code
  checked_stdin :
    (answer (handed m x) (.run (r.asking true [['-']]))).stdout =
      (answer (handed m' y) (.run (r.asking true [['-']]))).stdout ∧
    (answer (handed m x) (.run (r.asking true [['-']]))).code =
      (answer (handed m' y) (.run (r.asking true [['-']]))).code
  /-- A run may be refused the write, if the other one is refused it too. -/
  written : ∃ x' y', (answer m (.run (r.asking false [f]))).files.text? f = some x' ∧
    (answer m' (.run (r.asking false [f]))).files.text? f = some y' ∧
    (m.files.refuses f = m'.files.refuses f → Lines.settled x' = Lines.settled y')
  printed : Lines.settled (printed m r x) = Lines.settled (printed m' r y)

/-- The style of the breaks and a final break decide nothing: not how a text is
arranged, not what a check says, and of what is written only breaks again. -/
theorem breaks_decide_nothing (hr : r.subcommand ≠ .classify) (hs : settings m r.config = .ok s)
    (hs' : settings m' r.config = .ok s) (hf : f ≠ ['-']) (hx : m.files.text? f = some x)
    (hy : m'.files.text? f = some y) (h : Lines.settled x = Lines.settled y) :
    SameOutcome m m' r f x y := by
  have hin : settings (handed m x) r.config = .ok s := hs
  have hin' : settings (handed m' y) r.config = .ok s := hs'
  have hchanges (name : Text) :
      changes (editing m r s) name x = changes (editing m' r s) name y := changes_settled name h
  have hedited (name : Text) : Lines.settled (edited (editing m r s) name x) =
      Lines.settled (edited (editing m' r s) name y) := by
    rw [settled_edited, settled_edited, made_settled h]
  constructor
  · exact fun rules converting =>
      Arrange.arrange_settled rules (Edits.prepared_settled converting h)
  · obtain ⟨hout, hcode⟩ := check_file (editing m r s) hf hx
    obtain ⟨hout', hcode'⟩ := check_file (editing m' r s) hf hy
    rw [answer_asking hr hs, answer_asking hr hs', hout, hout', hcode, hcode', hchanges]
    exact ⟨rfl, rfl⟩
  · obtain ⟨hout, hcode⟩ := check_stdin (m := m) (editing m r s) x
    obtain ⟨hout', hcode'⟩ := check_stdin (m := m') (editing m' r s) y
    rw [answer_asking hr hin, answer_asking hr hin']
    have hedit : editing (handed m x) r s = editing m r s := rfl
    have hedit' : editing (handed m' y) r s = editing m' r s := rfl
    rw [hedit, hedit', hout, hout', hcode, hcode', hchanges]
    exact ⟨rfl, rfl⟩
  · rw [answer_asking hr hs, answer_asking hr hs']
    refine ⟨_, _, left_file _ hf hx, left_file _ hf hy, fun hrefuses => ?_⟩
    rw [left_settled, left_settled, hrefuses]
    cases m'.files.refuses f with
    | true => exact h
    | false => exact hedited f
  · rw [printed_eq hr hs, printed_eq hr hs']
    exact hedited stdinName

def mixedBreaks : Text := "var _a\r\"\"\"The b.\"\"\"\r\nvar b".toList

def plainBreaks : Text := "var _a\n\"\"\"The b.\"\"\"\nvar b\n".toList

theorem mixedBreaks_same : (holding mixedBreaks).files.text? "a.gd".toList = some mixedBreaks ∧
    (holding plainBreaks).files.text? "a.gd".toList = some plainBreaks ∧
    Lines.settled mixedBreaks = Lines.settled plainBreaks ∧
    SameOutcome (holding mixedBreaks) (holding plainBreaks) (reportingRequest true) "a.gd".toList
      mixedBreaks plainBreaks := by
  have hx : (holding mixedBreaks).files.text? "a.gd".toList = some mixedBreaks := by decide
  have hy : (holding plainBreaks).files.text? "a.gd".toList = some plainBreaks := by decide
  have hsettled : Lines.settled mixedBreaks = Lines.settled plainBreaks := by decide
  have hs (x : Text) : settings (holding x) (reportingRequest true).config = .ok .default := rfl
  exact ⟨hx, hy, hsettled,
    breaks_decide_nothing (by decide) (hs _) (hs _) (by decide) hx hy hsettled⟩

end Session

end ScriptOrder
