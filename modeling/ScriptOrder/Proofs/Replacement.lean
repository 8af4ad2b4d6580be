import Mathlib.Data.List.Basic
import ScriptOrder.Proofs.ConvertedSheet
import ScriptOrder.Proofs.Partition

/-!
# What a conversion replaces

`Replaces` says what may become of marks without saying how it is written: where
a docstring stands that ends, comments stand instead, and every other line is kept
with its reading. A docstring is told from the string states between the lines, not
by the machine that converts, and these states are the same on both sides. So the
declarations are, and a string is left open at the end of both texts or of neither.
-/

set_option autoImplicit false

namespace ScriptOrder
open Docstring Reading

namespace Marks

/-- Outside every string the first line opens a comment, and the last one is the
line after which it is closed. -/
def IsDocstring (e : Enclosure) (us : List Mark) : Prop :=
  e = .outside ∧ Spans (us.map Prod.fst) .outside

/-- The second marks are the first, read after the string state, with comments in
the place of every docstring. -/
inductive Replaces : Enclosure → List Mark → List Mark → Prop
  | done (e : Enclosure) : Replaces e [] []
  | docstring {e : Enclosure} {us cs ms ns : List Mark} : IsDocstring e us → Comments us →
      cs ≠ [] → Comments cs → (∀ c ∈ cs, c.1.head? = some '#') → Replaces .outside ms ns →
      Replaces e (us ++ ms) (cs ++ ns)
  | other {e : Enclosure} {m : Mark} {ms ns : List Mark} :
      (∀ us rest, m :: ms = us ++ rest → ¬ IsDocstring e us) → Replaces (e.after m.1) ms ns →
      Replaces e (m :: ms) (m :: ns)

variable {rules : Rulebook} {e f : Enclosure} {ms ns us rest : List Mark}

theorem IsDocstring.begins (h : IsDocstring e us) {m : Mark} (hm : m :: ms = us ++ rest) :
    e = .outside ∧ startsString m.1 = true := by
  obtain ⟨he, l, ls, hlines, hstart, -⟩ := h
  cases us with
  | nil => simp at hlines
  | cons u us =>
    obtain ⟨rfl, -⟩ := List.cons.inj hm
    obtain ⟨rfl, -⟩ := List.cons.inj hlines
    exact ⟨he, hstart⟩

theorem Comments.declare_nothing {cs : List Mark} (h : Comments cs) :
    (cs.filter fun m => m.2.isDeclaration) = [] := by
  rw [List.filter_eq_nil_iff]
  intro m hm
  simp [h m hm]

theorem Replaces.declarations (h : Replaces e ms ns) :
    (ns.filter fun m => m.2.isDeclaration) = ms.filter fun m => m.2.isDeclaration := by
  induction h with
  | done e => rfl
  | docstring _ hus _ hcs _ _ ih =>
    rw [List.filter_append, List.filter_append, hus.declare_nothing, hcs.declare_nothing, ih]
  | other _ _ ih => rw [List.filter_cons, List.filter_cons, ih]

theorem replaces_stays {ls : List Line} (h : Stays e ls .inComment) :
    Replaces e (marksIn rules e ls) (marksIn rules e ls) := by
  induction ls generalizing e with
  | nil => exact .done e
  | cons l ls ih =>
    obtain ⟨rfl, hrest⟩ := h
    refine .other (fun us rest _ hus => ?_) (ih hrest)
    exact absurd hus.1 (by simp)

theorem replaces_unended {unit : List Line} (h : Spans unit .inComment) :
    Replaces .outside (marksIn rules .outside unit) (marksIn rules .outside unit) := by
  obtain ⟨l, ls, rfl, -, hstays⟩ := h
  refine .other (fun us rest hsplit hus => ?_) (replaces_stays hstays)
  have hlines : l :: ls = us.map Prod.fst ++ rest.map Prod.fst := by
    rw [← List.map_append, ← hsplit]
    exact (map_marksIn .outside (l :: ls)).symm
  have hclosed : Enclosure.outside.afterAll (us.map Prod.fst) = .outside := hus.2.afterAll
  cases us with
  | nil =>
    obtain ⟨m, ms, hnil, -⟩ := hus.2
    simp at hnil
  | cons u us =>
    obtain ⟨rfl, hrest⟩ := List.cons.inj hlines
    rw [hrest] at hstays
    exact absurd (hclosed.symm.trans hstays.afterAll_left) (by simp)

theorem replaces_of_converts {ls ks : List Line} (h : Converts e ls ks f) :
    Replaces e (marksIn rules e ls) (marksIn rules e ks) := by
  induction h with
  | done e => exact .done e
  | kept _ hstart _ ih =>
    refine .other (fun us rest hsplit hus => ?_) ih
    obtain ⟨he, hquotes⟩ := hus.begins hsplit
    exact absurd (hstart he) (by simp [hquotes])
  | @replaced f unit ls ks hspans _ ih =>
    have hhash := comments_hash unit
    have hlines : ∀ c ∈ marksIn rules .outside (comments unit), c.1.head? = some '#' :=
      fun c hc => hhash c.1 (List.of_mem_zip hc).1
    have hsome : marksIn rules .outside (comments unit) ≠ [] := by
      rw [Ne, ← List.map_eq_nil_iff (f := Prod.fst), map_marksIn]
      exact comments_ne_nil unit
    rw [marksIn_append, marksIn_append, hspans.afterAll, afterAll_hash hhash]
    exact .docstring ⟨rfl, by rwa [map_marksIn]⟩ (spans_comments hspans) hsome (hash_comments hhash)
      hlines ih
  | unended hspans => exact replaces_unended hspans

end Marks

namespace Arrange
open Marks

variable {t : Text}

theorem terminated_convert (ht : Lines.unify t ≠ ['\n']) : Terminated (convert t) ↔ Terminated t := by
  have hafter := (converts_lines (Lines.lines (Lines.unify t))).afterAll.2
  rw [Terminated, Terminated, lines_convert ht, remarks_eq_nil, remarks_eq_nil, hafter]

/-- The conversion puts comments in the place of the docstrings that end and
touches nothing else. -/
theorem convert_replaces_docstrings (rules : Rulebook) (ht : Lines.unify t ≠ ['\n']) :
    Replaces .outside (Script.ofText rules t).marks (Script.ofText rules (convert t)).marks ∧
    ((Script.ofText rules (convert t)).marks.filter fun m => m.2.isDeclaration) =
      ((Script.ofText rules t).marks.filter fun m => m.2.isDeclaration) ∧
    (Terminated (convert t) ↔ Terminated t) := by
  have hreplaces : Replaces .outside (Script.ofText rules t).marks
      (Script.ofText rules (convert t)).marks := by
    rw [Script.ofText, Script.ofText, lines_convert ht]
    exact replaces_of_converts (converts_lines _)
  exact ⟨hreplaces, hreplaces.declarations, terminated_convert ht⟩

def quotedScript : Text :=
  "\"\"\"a # b\nvar c\n\"\"\"\nvar d = \"\"\"\n\"\"\"\n\"\"\"e\nvar f\n".toList

theorem quotedScript_replaced : Lines.unify quotedScript ≠ ['\n'] ∧
    convert quotedScript = "# a # b\n# var c\nvar d = \"\"\"\n\"\"\"\n\"\"\"e\nvar f\n".toList ∧
    Replaces .outside (Script.ofText .default quotedScript).marks
      (Script.ofText .default (convert quotedScript)).marks ∧
    ((Script.ofText .default (convert quotedScript)).marks.filter fun m => m.2.isDeclaration) =
      [("var d = \"\"\"".toList, .declaration .publicVar)] ∧
    ¬ Terminated (convert quotedScript) := by
  have hbreak : Lines.unify quotedScript ≠ ['\n'] := by decide
  have hdeclared : ((Script.ofText .default quotedScript).marks.filter fun m => m.2.isDeclaration) =
      [("var d = \"\"\"".toList, .declaration .publicVar)] := by decide
  have hopen : ¬ Terminated quotedScript := by
    rw [Terminated]
    decide
  obtain ⟨hreplaces, hdeclarations, hterminated⟩ := convert_replaces_docstrings .default hbreak
  exact ⟨hbreak, by decide, hreplaces, hdeclarations.trans hdeclared, mt hterminated.mp hopen⟩

end Arrange

end ScriptOrder
