import Mathlib.Data.List.Basic
import ScriptOrder.Proofs.ConvertedText
import ScriptOrder.Proofs.Modes
import ScriptOrder.Proofs.Sheet

/-!
# Positions in reports

A report names a line of the text that was arranged and shows it. That text is
the file's own unless docstrings were converted, and the line shown is looked up
without regard to breaks that are a CR alone: so a report points into the file
as far down as neither has moved a line.
-/

set_option autoImplicit false

namespace ScriptOrder

namespace Lines

/-- Up to a CR that stands alone the lines are the same with and without it as
a break. -/
theorem getElem?_unify {t : Text} {n : Nat}
    (h : ∀ l ∈ (lines (joinPairs t)).take (n + 1), '\r' ∉ l) :
    (lines (unify t))[n]? = (lines (joinPairs t))[n]? := by
  have hsame (l : Line) (hl : '\r' ∉ l) : (l.map fun c => if c = '\r' then '\n' else c) = l := by
    conv_rhs => rw [← List.map_id l]
    apply List.map_congr_left
    intro c hc
    have hr : c ≠ '\r' := fun heq => hl (heq ▸ hc)
    simp [hr]
  rw [unify]
  obtain ⟨init, rest, hsplit, hinit, hrest⟩ := exists_rest (joinPairs t)
  rw [hsplit] at h ⊢
  clear hsplit
  -- Induction on the ended lines; of the rest the hypothesis says that it holds no CR at all.
  induction init generalizing n with
  | nil =>
    by_cases hnil : rest = []
    · simp [hnil, unlines, lines]
    · have hlines : lines (unlines [] ++ rest) = [rest] := lines_single hnil hrest
      have hr : '\r' ∉ rest := h rest (by simp [hlines])
      rw [hsame (unlines [] ++ rest) hr]
  | cons m init ih =>
    rw [List.forall_mem_cons] at hinit
    have hlines (t : Text) : lines (m ++ '\n' :: t) = m :: lines t := lines_break m hinit.1 t
    have hfirst : unlines (m :: init) ++ rest = m ++ '\n' :: (unlines init ++ rest) := by
      simp [unlines]
    rw [hfirst, hlines, List.take_succ_cons, List.forall_mem_cons] at h
    rw [hfirst, List.map_append, List.map_cons, hsame m h.1, hlines]
    simp only [ite_self]
    rw [hlines]
    cases n with
    | zero => rfl
    | succ n =>
      rw [List.getElem?_cons_succ, List.getElem?_cons_succ]
      exact ih h.2 hinit.2

end Lines

namespace Reading

theorem openerIn_lt {e : Enclosure} {opener n k : Nat} {ls : List Line}
    (h : openerIn e opener n ls = some k) (ho : e.isOpen = true → opener < n) :
    k < n + ls.length := by
  induction ls generalizing e opener n with
  | nil =>
    rw [openerIn] at h
    split at h
    · rename_i hopen
      obtain rfl := Option.some.inj h
      exact ho hopen
    · simp at h
  | cons l ls ih =>
    rw [openerIn] at h
    have hnext : (if e.isOpen then opener else n) < n + 1 := by
      split
      · rename_i hopen
        exact Nat.lt_succ_of_lt (ho hopen)
      · exact Nat.lt_succ_self n
    have hlt := ih h fun _ => hnext
    rw [List.length_cons]
    omega

theorem remarks_lt (ls : List Line) : ∀ r ∈ remarks ls, r.line < ls.length := by
  intro r hr
  rw [remarks] at hr
  split at hr
  · rename_i k hk
    obtain rfl := List.mem_singleton.mp hr
    have hlt := openerIn_lt hk (by simp [Enclosure.isOpen])
    simpa using hlt
  · simp at hr

end Reading

namespace Outline

theorem remarksOf_lt {gap tail : List Mark} {sections : List Section} {i : Nat} :
    ∀ r ∈ remarksOf gap tail i sections,
      r.line < i + (sections.flatMap Section.marks ++ (gap ++ tail)).length := by
  induction sections generalizing i with
  | nil =>
    intro r hr
    rw [remarksOf, tailRemarks] at hr
    split at hr
    · simp at hr
    · rename_i hne
      obtain rfl := List.mem_singleton.mp hr
      have hpos := List.length_pos_iff.mpr hne
      simp
      omega
  | cons s ss ih =>
    intro r hr
    rw [List.flatMap_cons, List.append_assoc, List.length_append]
    rcases List.mem_append.mp hr with hr | hr
    · rw [Section.remarksAt] at hr
      split at hr
      · simp at hr
      · obtain rfl := List.mem_singleton.mp hr
        have hpos := List.length_pos_iff.mpr s.rows_ne_nil
        have hlen : s.marks.length = s.gap.length + s.rows.length := List.length_append
        dsimp only
        omega
    · have hlt := ih r hr
      omega

end Outline

namespace Arrange

variable {rules : Rulebook} {t : Text}

theorem remarks_lt :
    ∀ r ∈ (arrange rules t).remarks, r.line < (Lines.lines (Lines.unify t)).length := by
  intro r hr
  let s := Script.ofText rules t
  have hs : s.Even := Script.ofLines_even rules _
  rcases (mem_remarks s r).mp hr with hr | hr
  · exact Reading.remarks_lt _ r hr
  · obtain ⟨sh, hsh⟩ := Sheet.exists_sheet s.marks
    rw [sh.remarks_sheet hs hsh.symm] at hr
    have hlt := Outline.remarksOf_lt r hr
    have hlen : s.marks.length = s.lines.length := by
      rw [Script.marks, List.length_zip, show s.readings.length = s.lines.length from hs.symm,
        Nat.min_self]
    rw [← hsh, Sheet.marks, Outline.marks] at hlen
    simp only [List.length_append, Sheet.start] at hlt hlen
    show r.line < s.lines.length
    omega

theorem remarks_single {s : Script} {r : Remark}
    (h : Reading.remarks s.lines ++ Scan.remarks s (start s) = [r]) : remarks s = [r] := by
  rw [remarks, h]
  exact List.mergeSort_singleton r

end Arrange

namespace Edits

def diagnosis (colored : Bool) (name : Text) (n : Nat) (shown : Line) (message : Text) : Text :=
  Paint.paint colored (some Paint.strongAlert) "warning:".toList ++
    ' ' :: Paint.paint colored (some Paint.bright) message ++
    '\n' :: Paint.paint colored (some Paint.pointer) "-->".toList ++
    ' ' :: Paint.paint colored (some Paint.bright) (name ++ ':' :: Nat.toDigits 10 n) ++
    '\n' :: ' ' :: gutter colored (List.replicate (Paint.number n).length ' ') ++
    '\n' :: gutter colored (Paint.number n) ++ ' ' :: shown ++ ['\n', '\n']

def reports (colored : Bool) (name : Text) (rules : Rulebook) (converting : Bool) (x : Text) : Text :=
  (arrange rules (prepared converting x)).remarks.flatMap fun r =>
    diagnosis colored name (r.line + 1) (excerpt (prepared converting x) r.line) r.message.toList

theorem arranging_reports (colored : Bool) (name : Text) (rules : Rulebook) (converting : Bool)
    (x : Text) : (arranging rules converting true colored name x).report =
      reports colored name rules converting x := rfl

/-- Counted from one, the line `n` of a text is `l`. -/
def PointsTo (t : Text) (n : Nat) (l : Line) : Prop :=
  1 ≤ n ∧ (Lines.lines (Lines.unify t))[n - 1]? = some l

instance (t : Text) (n : Nat) (l : Line) : Decidable (PointsTo t n l) :=
  inferInstanceAs (Decidable (_ ∧ _))

/-- The first `n` lines of a text come to be arranged as they are: no docstring
in them is converted or, if none is to be, none of their breaks is a CR alone. -/
def Undisturbed (converting : Bool) (x : Text) (n : Nat) : Prop :=
  if converting then (Docstring.convertLines (Lines.lines (Lines.unify x))).take n =
    (Lines.lines (Lines.unify x)).take n
  else ∀ l ∈ (Lines.lines (Lines.joinPairs x)).take n, '\r' ∉ l

theorem pointsTo_excerpt {t : Text} {n : Nat} (hn : n < (Lines.lines (Lines.unify t)).length)
    (h : ∀ l ∈ (Lines.lines (Lines.joinPairs t)).take (n + 1), '\r' ∉ l) :
    PointsTo t (n + 1) (excerpt t n) := by
  have hsame := Lines.getElem?_unify h
  refine ⟨Nat.le_add_left 1 n, ?_⟩
  rw [Nat.add_sub_cancel, hsame, excerpt, List.getD_eq_getElem?_getD, ← hsame,
    List.getElem?_eq_getElem hn]
  rfl

theorem pointsTo_converted {x : Text} {n : Nat}
    (hn : n < (Lines.lines (Lines.unify (Docstring.convert x))).length) :
    PointsTo (Docstring.convert x) (n + 1) (excerpt (Docstring.convert x) n) := by
  apply pointsTo_excerpt hn
  intro l hl hr
  rw [Lines.joinPairs_plain _ (Docstring.convert_plain x)] at hl
  exact Docstring.convert_plain x (Lines.lines_subset _ l (List.mem_of_mem_take hl) hr)

/-- Where the report on a remark points, if `x` is the text of the file. -/
structure Located (converting : Bool) (x : Text) (r : Remark) : Prop where
  counted : r.line < (Lines.lines (Lines.unify (prepared converting x))).length
  converted : converting = true →
    PointsTo (Docstring.convert x) (r.line + 1) (excerpt (prepared converting x) r.line)
  /-- After a conversion the report is right if the line has kept its place. -/
  kept : converting = true →
    (PointsTo x (r.line + 1) (excerpt (prepared converting x) r.line) ↔
      (Docstring.convertLines (Lines.lines (Lines.unify x)))[r.line]? =
        (Lines.lines (Lines.unify x))[r.line]?)
  undisturbed : Undisturbed converting x (r.line + 1) →
    PointsTo x (r.line + 1) (excerpt (prepared converting x) r.line)

theorem pointsTo_kept {x : Text} {n : Nat} {l : Line} (hx : Lines.unify x ≠ ['\n'])
    (h : PointsTo (Docstring.convert x) (n + 1) l) : PointsTo x (n + 1) l ↔
      (Docstring.convertLines (Lines.lines (Lines.unify x)))[n]? =
        (Lines.lines (Lines.unify x))[n]? := by
  obtain ⟨hn, hline⟩ := h
  rw [Nat.add_sub_cancel, Docstring.lines_convert hx] at hline
  rw [PointsTo, Nat.add_sub_cancel, hline]
  exact ⟨fun h => h.2.symm, fun h => ⟨hn, h.symm⟩⟩

theorem located (rules : Rulebook) (converting : Bool) (x : Text) :
    ∀ r ∈ (arrange rules (prepared converting x)).remarks, Located converting x r := by
  intro r hr
  have hlt := Arrange.remarks_lt r hr
  cases converting with
  | false => exact ⟨hlt, by simp, by simp, pointsTo_excerpt hlt⟩
  | true =>
    have hbreak : Lines.unify x ≠ ['\n'] := by
      intro hx
      rw [prepared, if_pos rfl, Docstring.convert_break hx] at hlt
      exact absurd hlt (Nat.not_lt_zero _)
    have hpoints : PointsTo (Docstring.convert x) (r.line + 1) (excerpt (Docstring.convert x) r.line) :=
      pointsTo_converted hlt
    have hkept := pointsTo_kept hbreak hpoints
    refine ⟨hlt, fun _ => hpoints, fun _ => hkept, ?_⟩
    intro hsame
    have hline := congrArg (·[r.line]?) (show _ = _ from hsame)
    simp only [List.getElem?_take, Nat.lt_succ_self, if_true] at hline
    exact hkept.mpr hline

end Edits

namespace Batch

variable {o : Options} {edit : Edit}

theorem onFile_err {p : Progress} {f x : Text} (hx : p.files.text? f = some x) :
    (onFile o edit p f).err = p.err ++ (edit f x).report := by
  rw [onFile]
  simp only [hx]
  split
  · split
    · rfl
    · split <;> rfl
  · rfl

theorem onFile_failure {p : Progress} {f x : Text} (hx : p.files.text? f = some x)
    (hr : p.files.refuses f = false) : (onFile o edit p f).failure = p.failure := by
  obtain ⟨l, -, -, hwrite⟩ := FileStore.write?_of_text? hx
  have hsome := hwrite (edited edit f x)
  rw [hr, if_neg Bool.false_ne_true] at hsome
  rw [onFile]
  simp only [hx, hsome]
  split
  · split <;> rfl
  · rfl

theorem step_err (p : Progress) (input : Text) :
    ∃ said, (step o edit p input).err = p.err ++ said := by
  rw [step]
  split
  · exact ⟨[], by simp⟩
  · split
    · rw [onStdin]
      split
      · exact ⟨[], by simp⟩
      · rename_i x _
        refine ⟨(edit stdinName x).report, ?_⟩
        split
        · split <;> rfl
        · rfl
    · cases hx : p.files.text? input with
      | none =>
        rw [onFile]
        simp only [hx]
        exact ⟨_, rfl⟩
      | some x => exact ⟨_, onFile_err hx⟩

theorem run_err (p : Progress) (inputs : List Text) :
    ∃ said, (run o edit p inputs).err = p.err ++ said := by
  induction inputs generalizing p with
  | nil => exact ⟨[], by simp [run]⟩
  | cons input inputs ih =>
    obtain ⟨said, hsaid⟩ := step_err (o := o) p input
    obtain ⟨rest, hrest⟩ := ih (step o edit p input)
    exact ⟨said ++ rest, by rw [← List.append_assoc, ← hsaid, ← hrest]; rfl⟩

end Batch

namespace Session
open Batch Edits

variable {m : Machine} {r : Request} {s : Settings}

def converts (r : Request) (s : Settings) : Bool := r.has .convertMultiline || s.convertMultiline

theorem answer_organize (hr : r.subcommand = .organize) (hs : settings m r.config = .ok s) :
    answer m (.run r) = batch m (r.has .check) (organizing m r s) r.inputs := by
  simp only [answer, hs]
  rw [perform_batch (by simp [hr]), editing, hr]

theorem organizing_report (hpretty : r.has .prettyErrors = true) (f x : Text) :
    (organizing m r s f x).report = reports m.colored f s.rulebook (converts r s) x := by
  rw [organizing, hpretty]
  exact arranging_reports _ _ _ _ _

theorem reports_alone (hr : r.subcommand = .organize) (hpretty : r.has .prettyErrors = true)
    (hs : settings m r.config = .ok s) {f x : Text} (hinputs : r.inputs = [f]) (hf : f ≠ ['-'])
    (hx : m.files.text? f = some x) (hopen : m.files.refuses f = false) :
    (answer m (.run r)).stderr = reports m.colored f s.rulebook (converts r s) x := by
  have hheld : (start m.files m.stdin).files.text? f = some x := hx
  have hgranted : (start m.files m.stdin).files.refuses f = false := hopen
  rw [answer_organize hr hs, hinputs, batch_single, if_neg hf, ofBatch, ← organizing_report hpretty]
  simp only [onFile_failure hheld hgranted, onFile_err hheld]
  rfl

/-- The reports on a file are printed when its turn comes, one for each remark
on the text that is arranged, and all of them point where `Located` says. -/
theorem reports_located (hr : r.subcommand = .organize) (hpretty : r.has .prettyErrors = true)
    (hs : settings m r.config = .ok s) {before after : List Text} {f x : Text}
    (hinputs : r.inputs = before ++ f :: after) (hf : f ≠ ['-']) {p : Progress}
    (hp : Batch.run ⟨r.has .check, m.colored⟩ (organizing m r s) (start m.files m.stdin) before = p)
    (hgoes : p.failure = none) (hx : p.files.text? f = some x) :
    (∃ rest, (answer m (.run r)).stderr =
      p.err ++ reports m.colored f s.rulebook (converts r s) x ++ rest) ∧
    ∀ d ∈ (arrange s.rulebook (prepared (converts r s) x)).remarks, Located (converts r s) x d := by
  let o : Options := ⟨r.has .check, m.colored⟩
  let edit := organizing m r s
  have hstep : (Batch.step o edit p f).err = p.err ++ (edit f x).report := by
    rw [Batch.step, if_neg (by simp [hgoes]), if_neg hf]
    exact onFile_err hx
  obtain ⟨said, hsaid⟩ := run_err (Batch.step o edit p f) after
  have hrun : Batch.run o edit (start m.files m.stdin) r.inputs =
      Batch.run o edit (Batch.step o edit p f) after := by
    rw [hinputs, Batch.run, List.foldl_append, List.foldl_cons]
    exact congrArg (fun q => Batch.run o edit (Batch.step o edit q f) after) hp
  have herr : (Batch.run o edit (start m.files m.stdin) r.inputs).err =
      p.err ++ (edit f x).report ++ said := by rw [hrun, hsaid, hstep]
  constructor
  · rw [answer_organize hr hs, ← organizing_report hpretty]
    show ∃ rest, (ofBatch o (Batch.run o edit (start m.files m.stdin) r.inputs)).stderr = _
    rw [ofBatch]
    dsimp only
    rw [herr]
    split
    · exact ⟨said ++ Failure.display _, by rw [List.append_assoc]⟩
    · exact ⟨said, rfl⟩
  · exact located _ _ x

def holding (x : Text) : Machine := ⟨⟨[(["a.gd".toList], .text x)], [], []⟩, .text [], none, false⟩

def strayScript : Text := "pass\nvar a\n\"\"\"\nThe speed.\n\"\"\"\nvar speed\n".toList

def reportingArguments (converting : Bool) : List Text :=
  ["--pretty-errors".toList, "organize".toList] ++
    (if converting then ["--convert-multiline".toList] else []) ++ ["a.gd".toList]

def reportingRequest (converting : Bool) : Request :=
  ⟨.organize, ["a.gd".toList], none,
    (if converting then [.convertMultiline] else []) ++ [.prettyErrors]⟩

theorem reporting_asked (converting : Bool) :
    Request.ofArguments (reportingArguments converting) = .run (reportingRequest converting) := by
  cases converting <;> decide

theorem strayScript_located : (holding strayScript).files.text? "a.gd".toList = some strayScript ∧
    (∃ rest, (answer (holding strayScript) (.run (reportingRequest true))).stderr =
      diagnosis false "a.gd".toList 1 "pass".toList
        "top-level text before a declaration kept with line 2".toList ++ rest) ∧
    PointsTo strayScript 1 "pass".toList := by
  have hx : (holding strayScript).files.text? "a.gd".toList = some strayScript := by decide
  have hs : settings (holding strayScript) (reportingRequest true).config = .ok .default := rfl
  have hremarks : (arrange Settings.default.rulebook (prepared true strayScript)).remarks =
      [⟨0, .stray 1⟩] := Arrange.remarks_single (by decide)
  have hmessage : (⟨0, .stray 1⟩ : Remark).message =
      "top-level text before a declaration kept with line 2" := by decide
  have hundisturbed : Undisturbed true strayScript 1 := by
    rw [Undisturbed, if_pos rfl]
    decide
  have hinputs : (reportingRequest true).inputs = [] ++ "a.gd".toList :: [] := rfl
  obtain ⟨⟨rest, herr⟩, hlocated⟩ :=
    reports_located rfl rfl hs hinputs (by decide) rfl rfl hx
  rw [show converts (reportingRequest true) .default = true from rfl] at herr hlocated
  rw [hremarks] at hlocated
  refine ⟨hx, ⟨rest, ?_⟩, ?_⟩
  · rw [herr, reports, hremarks, List.flatMap_singleton, hmessage]
    rfl
  · exact (hlocated ⟨0, .stray 1⟩ (by simp)).undisturbed hundisturbed

def shiftedScript : Text := "\"\"\"\nThe player.\n\"\"\"\nvar speed\n# end\n".toList

def returnedScript : Text := "var speed\r# end\n".toList

/-- The line 3 is named for a comment that stands in line 5, and the line 2, which
is that comment, is shown empty. -/
theorem reports_miss :
    (run (holding shiftedScript) (reportingArguments true)).stderr =
      diagnosis false "a.gd".toList 3 "# end".toList
        "comment text with no declaration after it".toList ∧
    ¬ PointsTo shiftedScript 3 "# end".toList ∧
    (run (holding returnedScript) (reportingArguments false)).stderr =
      diagnosis false "a.gd".toList 2 [] "comment text with no declaration after it".toList ∧
    ¬ PointsTo returnedScript 2 [] := by
  have hshifted : (arrange Settings.default.rulebook (prepared true shiftedScript)).remarks =
      [⟨2, .dangling⟩] := Arrange.remarks_single (by decide)
  have hreturned : (arrange Settings.default.rulebook (prepared false returnedScript)).remarks =
      [⟨1, .dangling⟩] := Arrange.remarks_single (by decide)
  have hsaid (converting : Bool) (x : Text) : (run (holding x) (reportingArguments converting)).stderr =
      reports false "a.gd".toList Settings.default.rulebook converting x := by
    have hpretty : (reportingRequest converting).has .prettyErrors = true := by
      cases converting <;> rfl
    have hconverts : converts (reportingRequest converting) .default = converting := by
      cases converting <;> rfl
    have halone := reports_alone (m := holding x) rfl hpretty rfl rfl (by decide) rfl rfl
    rw [run, reporting_asked, halone, hconverts]
    rfl
  refine ⟨?_, by decide, ?_, by decide⟩
  · rw [hsaid, reports, hshifted]
    decide
  · rw [hsaid, reports, hreturned]
    decide

end Session

end ScriptOrder
