import Mathlib.Data.List.Pairwise
import ScriptOrder.Proofs.Modes
import ScriptOrder.Proofs.Writes

/-!
# Batches and single runs

A batch over different files does what the runs on its inputs alone would do,
one after another: no run sees what another one wrote. A write that is refused ends
the batch there.
-/

set_option autoImplicit false

namespace ScriptOrder

namespace Batch
open FileStore

variable {o : Options} {edit : Edit} {st st' : FileStore} {stdin stdin' : Content} {input : Text}

def alone (o : Options) (edit : Edit) (st : FileStore) (stdin : Content) (input : Text) :
    Progress :=
  step o edit (start st stdin) input

/-- What a run has said and come to, apart from what it leaves behind. -/
structure Said where
  out : Text
  err : Text
  changed : Bool
  failure : Option Failure

namespace Said

def followed (a b : Said) : Said :=
  ⟨a.out ++ b.out, a.err ++ b.err, a.changed || b.changed, b.failure⟩

def all (a : Said) (bs : List Said) : Said :=
  ⟨a.out ++ bs.flatMap out, a.err ++ bs.flatMap err, a.changed || bs.any changed, none⟩

theorem all_cons (a b : Said) (bs : List Said) : a.all (b :: bs) = (a.followed b).all bs := by
  simp [all, followed, Bool.or_assoc]

end Said

namespace Progress

def said (p : Progress) : Said := ⟨p.out, p.err, p.changed, p.failure⟩

def followed (p q : Progress) : Progress :=
  { q with out := p.out ++ q.out, err := p.err ++ q.err, changed := p.changed || q.changed }

end Progress

/-- A step adds a run on its input alone. -/
theorem step_alone {p : Progress} (h : p.failure = none) :
    step o edit p input = p.followed (alone o edit p.files p.stdin input) := by
  obtain ⟨files, stdin, out, err, changed, failure⟩ := p
  obtain rfl : failure = none := h
  rw [alone, step, step]
  simp only [start, Option.isSome_none, Bool.false_eq_true, if_false]
  split
  · cases stdin with
    | bytes bs => simp [onStdin, Progress.followed]
    | text x =>
      simp only [onStdin, Progress.followed]
      split
      · split <;> simp
      · simp
  · cases hx : files.text? input with
    | none => simp [onFile, Progress.followed, hx]
    | some x =>
      simp only [onFile, Progress.followed, hx]
      split
      · split
        · simp
        · split <;> simp
      · simp

theorem run_failed {p : Progress} (h : p.failure.isSome = true) (inputs : List Text) :
    run o edit p inputs = p := by
  induction inputs with
  | nil => rfl
  | cons input inputs ih =>
    rw [run, List.foldl_cons, step, if_pos h]
    exact ih

theorem alone_undecodable (bs : List UInt8) : alone o edit st (.bytes bs) ['-'] =
    ⟨st, .bytes bs, [], [], false, some .undecodableInput⟩ := rfl

theorem alone_given (x : Text) : alone o edit st (.text x) ['-'] =
    ⟨st, .text [],
      if o.check then if changes edit stdinName x then stdinName ++ ['\n'] else []
      else edited edit stdinName x,
      (edit stdinName x).report, o.check && changes edit stdinName x, none⟩ := by
  rw [alone, step, if_neg (by simp [start]), if_pos rfl]
  cases hc : o.check <;> cases hx : changes edit stdinName x <;> simp [onStdin, start, hc, hx]

theorem alone_unreadable (hin : input ≠ ['-']) (hx : st.text? input = none) :
    alone o edit st stdin input =
      ⟨st, stdin, [], warnLine o.colored ("cannot read ".toList ++ input), false, none⟩ := by
  rw [alone, step, if_neg (by simp [start]), if_neg hin]
  simp [onFile, start, hx]

/-- Whether a run on one input is to write a file and may not. -/
def Refused (o : Options) (edit : Edit) (st : FileStore) (input : Text) : Prop :=
  o.check = false ∧ input ≠ ['-'] ∧ st.refuses input = true ∧
    ∃ x ∈ st.text? input, changes edit input x = true

instance (o : Options) (edit : Edit) (st : FileStore) (input : Text) :
    Decidable (Refused o edit st input) :=
  inferInstanceAs (Decidable (_ ∧ _ ∧ _ ∧ ∃ x ∈ st.text? input, changes edit input x = true))

def written? (o : Options) (edit : Edit) (st : FileStore) (input : Text) : Option Write :=
  if o.check || st.refuses input then none
  else (st.named? input).bind fun l => (st.text? input).bind fun x =>
    if changes edit input x then some (l, edited edit input x) else none

theorem alone_read (hin : input ≠ ['-']) {x : Text} (hx : st.text? input = some x) :
    alone o edit st stdin input =
      ⟨st.replaceAll (written? o edit st input).toList, stdin,
        if changes edit input x then
          if o.check then input ++ ['\n']
          else if st.refuses input then [] else doneLine o.colored input
        else [],
        (edit input x).report, changes edit input x,
        if changes edit input x && !o.check && st.refuses input then some (.refusedWrite input)
        else none⟩ := by
  obtain ⟨l, hl, hwrite⟩ := exists_named hin hx
  have hput := hwrite (edited edit input x)
  rw [alone, step, if_neg (by simp [start]), if_neg hin, written?, hl, hx]
  cases hc : o.check <;> cases hch : changes edit input x <;> cases hr : st.refuses input <;>
    simp [onFile, start, replaceAll, hx, hc, hch, hput, hr]

theorem alone_stdin (hin : input ≠ ['-']) : (alone o edit st stdin input).stdin = stdin := by
  cases hx : st.text? input with
  | none => rw [alone_unreadable hin hx]
  | some x => rw [alone_read hin hx]

theorem alone_failure (hgiven : input = ['-'] → ∃ x, stdin = .text x)
    (hgoes : ¬ Refused o edit st input) : (alone o edit st stdin input).failure = none := by
  by_cases hin : input = ['-']
  · obtain ⟨x, rfl⟩ := hgiven hin
    subst hin
    rw [alone_given]
  · cases hx : st.text? input with
    | none => rw [alone_unreadable hin hx]
    | some x =>
      rw [alone_read hin hx]
      simp only [ite_eq_right_iff, Bool.and_eq_true, Bool.not_eq_true']
      rintro ⟨⟨hchanges, hcheck⟩, hrefuses⟩
      exact absurd ⟨hcheck, hin, hrefuses, x, hx, hchanges⟩ hgoes

theorem alone_refused (h : Refused o edit st input) :
    (alone o edit st stdin input).failure = some (.refusedWrite input) ∧
    (alone o edit st stdin input).files = st := by
  obtain ⟨hcheck, hin, hrefuses, x, hx, hchanges⟩ := h
  rw [alone_read hin hx, written?]
  simp [hcheck, hrefuses, hchanges, replaceAll]

theorem named?_of_written? {w : Write} (h : written? o edit st input = some w) :
    st.named? input = some w.1 := by
  rw [written?] at h
  split at h
  · simp at h
  · obtain ⟨l, hl, h⟩ := Option.bind_eq_some_iff.mp h
    obtain ⟨x, -, h⟩ := Option.bind_eq_some_iff.mp h
    split at h
    · rw [hl, ← Option.some.inj h]
    · simp at h

theorem written?_stdin : written? o edit st ['-'] = none := by simp [written?, named?]

theorem alone_files : (alone o edit st stdin input).files =
    st.replaceAll (written? o edit st input).toList := by
  by_cases hin : input = ['-']
  · subst hin
    rw [written?_stdin]
    cases stdin with
    | bytes bs =>
      rw [alone_undecodable]
      rfl
    | text x =>
      rw [alone_given]
      rfl
  · cases hx : st.text? input with
    | none =>
      rw [alone_unreadable hin hx]
      simp [written?, hx, replaceAll]
    | some x => rw [alone_read hin hx]

/-- Two stores give an input the same text and the same leave to write. -/
structure Matching (st st' : FileStore) (input : Text) : Prop where
  text : input ≠ ['-'] → st.text? input = st'.text? input
  named : st.named? input = st'.named? input
  refuses : st.refuses input = st'.refuses input

namespace Matching

theorem said (h : Matching st st' input) (hstdin : input = ['-'] → stdin = stdin') :
    (alone o edit st stdin input).said = (alone o edit st' stdin' input).said := by
  by_cases hin : input = ['-']
  · obtain rfl := hstdin hin
    subst hin
    cases stdin with
    | bytes bs =>
      rw [alone_undecodable, alone_undecodable]
      rfl
    | text x =>
      rw [alone_given, alone_given]
      rfl
  · cases hx : st.text? input with
    | none =>
      rw [alone_unreadable hin hx, alone_unreadable hin ((h.text hin).symm.trans hx)]
      rfl
    | some x =>
      rw [alone_read hin hx, alone_read hin ((h.text hin).symm.trans hx), h.refuses]
      rfl

theorem written (h : Matching st st' input) :
    written? o edit st input = written? o edit st' input := by
  by_cases hin : input = ['-']
  · rw [hin, written?_stdin, written?_stdin]
  · rw [written?, written?, h.refuses, h.named, h.text hin]

theorem refused (h : Matching st st' input) :
    Refused o edit st input ↔ Refused o edit st' input := by
  by_cases hin : input = ['-']
  · simp [Refused, hin]
  · rw [Refused, Refused, h.refuses, h.text hin]

end Matching

theorem matching_replaceAll {ws : List Write} (h : ∀ w ∈ ws, st.named? input ≠ some w.1) :
    Matching (st.replaceAll ws) st input :=
  ⟨fun hin => text?_replaceAll hin h, named?_replaceAll ws input, refuses_replaceAll ws input⟩

theorem matching_alone {other : Text}
    (h : ∀ l, st.named? input = some l → st.named? other ≠ some l) :
    Matching (alone o edit st stdin input).files st other := by
  rw [alone_files]
  apply matching_replaceAll
  intro w hw
  exact h w.1 (named?_of_written? (Option.mem_toList.mp hw))

/-- The inputs of a batch: no file is named twice, and the text handed to the
command is a text and is asked for at most once. -/
structure Apart (st : FileStore) (stdin : Content) (inputs : List Text) : Prop where
  named : (inputs.filterMap st.named?).Nodup
  once : inputs.count ['-'] ≤ 1
  given : ['-'] ∈ inputs → ∃ x, stdin = .text x

namespace Apart

variable {inputs : List Text}

theorem pairwise (h : Apart st stdin inputs) :
    inputs.Pairwise fun a b => ∀ l, st.named? a = some l → st.named? b ≠ some l :=
  (List.pairwise_filterMap.mp h.named).imp fun hab l hl hl' => hab l hl l hl' rfl

theorem stdin_once (h : Apart st stdin (input :: inputs)) (hmem : ['-'] ∈ inputs) :
    input ≠ ['-'] := by
  rintro rfl
  have honce := h.once
  rw [List.count_cons_self] at honce
  have hpos := List.count_pos_iff.mpr hmem
  omega

theorem sublist {inputs' : List Text} (h : Apart st stdin inputs) (hsub : inputs'.Sublist inputs) :
    Apart st stdin inputs' :=
  ⟨h.named.sublist (hsub.filterMap _), Nat.le_trans (hsub.count_le _) h.once,
    fun hmem => h.given (hsub.subset hmem)⟩

theorem tail (h : Apart st stdin (input :: inputs)) :
    Apart (alone o edit st stdin input).files (alone o edit st stdin input).stdin inputs := by
  have hrest : Apart st stdin inputs := h.sublist (List.sublist_cons_self input inputs)
  have hnamed : (alone o edit st stdin input).files.named? = st.named? := by
    rw [alone_files]
    exact funext (named?_replaceAll _)
  refine ⟨hnamed ▸ hrest.named, hrest.once, fun hmem => ?_⟩
  rw [alone_stdin (h.stdin_once hmem)]
  exact hrest.given hmem

theorem perm {inputs' : List Text} (h : Apart st stdin inputs) (hperm : inputs.Perm inputs') :
    Apart st stdin inputs' := by
  constructor
  · exact (hperm.filterMap _).nodup_iff.mp h.named
  · rw [← hperm.count_eq]
    exact h.once
  · exact fun hmem => h.given (hperm.mem_iff.mpr hmem)

theorem named_unique (h : Apart st stdin inputs) {other : Text} (hin : input ∈ inputs)
    (hother : other ∈ inputs) {l : Location} (hl : st.named? input = some l)
    (hl' : st.named? other = some l) : input = other := by
  have hsymm : Std.Symm fun a b : Text => ∀ k, st.named? a = some k → st.named? b ≠ some k :=
    ⟨fun a b hab k hk hk' => hab k hk' hk⟩
  by_contra hne
  exact h.pairwise.forall hin hother hne l hl hl'

theorem writes_nodup (h : Apart st stdin inputs) :
    ((inputs.filterMap (written? o edit st)).map Prod.fst).Nodup := by
  apply List.pairwise_map.mpr
  apply List.pairwise_filterMap.mpr
  apply h.pairwise.imp
  intro a b hab v hv w hw heq
  exact hab v.1 (named?_of_written? hv) (heq ▸ named?_of_written? hw)

theorem at?_writes (h : Apart st stdin inputs) (hin : input ∈ inputs) {l : Location}
    (hl : st.named? input = some l) :
    (st.replaceAll (inputs.filterMap (written? o edit st))).at? l =
      (st.replaceAll (written? o edit st input).toList).at? l := by
  cases hwrite : written? o edit st input with
  | none =>
    apply at?_replaceAll_other
    intro w hw heq
    obtain ⟨other, hother, hwrite'⟩ := List.mem_filterMap.mp hw
    have hsame := h.named_unique hin hother hl (heq ▸ named?_of_written? hwrite')
    rw [← hsame, hwrite] at hwrite'
    simp at hwrite'
  | some w =>
    obtain rfl : w.1 = l := Option.some.inj ((named?_of_written? hwrite).symm.trans hl)
    exact at?_replaceAll h.writes_nodup (List.mem_filterMap.mpr ⟨input, hin, hwrite⟩)

end Apart

structure Gathers (o : Options) (edit : Edit) (p : Progress) (inputs : List Text) (q : Progress) :
    Prop where
  said : q.said = p.said.all (inputs.map fun i => (alone o edit p.files p.stdin i).said)
  files : q.files = p.files.replaceAll (inputs.filterMap (written? o edit p.files))

theorem run_gathers {p : Progress} {inputs : List Text} (hp : p.failure = none)
    (h : Apart p.files p.stdin inputs) (hgoes : ∀ i ∈ inputs, ¬ Refused o edit p.files i) :
    Gathers o edit p inputs (run o edit p inputs) := by
  induction inputs generalizing p with
  | nil =>
    constructor
    · simp [run, Progress.said, Said.all, hp]
    · rfl
  | cons input inputs ih =>
    obtain ⟨hfirst, hlater⟩ := List.forall_mem_cons.mp hgoes
    let q := alone o edit p.files p.stdin input
    have hstep : step o edit p input = p.followed q := step_alone hp
    have hfailure : (p.followed q).failure = none :=
      alone_failure (fun hin => h.given (by simp [hin])) hfirst
    -- What the later inputs give and write is what they gave and would have written before.
    have hmatching : ∀ i ∈ inputs, Matching q.files p.files i := fun i hi =>
      matching_alone ((List.pairwise_cons.mp h.pairwise).1 i hi)
    have hrest := ih hfailure h.tail fun i hi => mt (hmatching i hi).refused.mp (hlater i hi)
    have hsaid : inputs.map (fun i => (alone o edit q.files q.stdin i).said) =
        inputs.map fun i => (alone o edit p.files p.stdin i).said := by
      apply List.map_congr_left
      intro i hi
      apply (hmatching i hi).said
      rintro rfl
      exact alone_stdin (h.stdin_once hi)
    have hwrites : inputs.filterMap (written? o edit q.files) =
        inputs.filterMap (written? o edit p.files) :=
      List.filterMap_congr fun i hi => (hmatching i hi).written
    have hfiles : q.files = p.files.replaceAll (written? o edit p.files input).toList := alone_files
    have hsplit : (input :: inputs).filterMap (written? o edit p.files) =
        (written? o edit p.files input).toList ++ inputs.filterMap (written? o edit p.files) := by
      rw [List.filterMap_cons]
      cases written? o edit p.files input <;> rfl
    rw [run, List.foldl_cons, hstep]
    constructor
    · calc (run o edit (p.followed q) inputs).said
          = (p.said.followed q.said).all
              (inputs.map fun i => (alone o edit q.files q.stdin i).said) := hrest.said
        _ = p.said.all (q.said :: inputs.map fun i => (alone o edit p.files p.stdin i).said) := by
            rw [hsaid, Said.all_cons]
    · calc (run o edit (p.followed q) inputs).files
          = q.files.replaceAll (inputs.filterMap (written? o edit q.files)) := hrest.files
        _ = p.files.replaceAll ((input :: inputs).filterMap (written? o edit p.files)) := by
            rw [hwrites, hfiles, hsplit, replaceAll_append]

end Batch

namespace Session
open Batch FileStore

variable {m : Machine} {check : Bool} {edit : Edit} {inputs : List Text}

/-- A batch compared with the single runs on its inputs. -/
structure Composed (m : Machine) (check : Bool) (edit : Edit) (inputs : List Text) : Prop where
  stdout : (batch m check edit inputs).stdout =
    inputs.flatMap fun i => (batch m check edit [i]).stdout
  stderr : (batch m check edit inputs).stderr =
    inputs.flatMap fun i => (batch m check edit [i]).stderr
  code : (batch m check edit inputs).code =
    if check ∧ ∃ i ∈ inputs, (batch m check edit [i]).code = 1 then 1 else 0
  named : ∀ i ∈ inputs, ∀ l, m.files.named? i = some l →
    (batch m check edit inputs).files.at? l = (batch m check edit [i]).files.at? l
  unnamed : ∀ l, (∀ i ∈ inputs, m.files.named? i ≠ some l) →
    (batch m check edit inputs).files.at? l = m.files.at? l
  /-- No file and no folder is made, and none is lost. -/
  places : (batch m check edit inputs).files.files.map Prod.fst = m.files.files.map Prod.fst ∧
    (batch m check edit inputs).files.folders = m.files.folders
  unreadable : ∀ i, i ≠ ['-'] →
    (m.files.content? i = none ∨ ∃ bs, m.files.content? i = some (.bytes bs)) →
    batch m check edit [i] =
      ⟨0, [], warnLine m.colored ("cannot read ".toList ++ i), m.files⟩
  permuted : ∀ inputs', inputs.Perm inputs' →
    (batch m check edit inputs').files = (batch m check edit inputs).files ∧
    (batch m check edit inputs').code = (batch m check edit inputs).code

/-- What a batch comes to that is refused the write of `f` after the inputs
`before`: nothing is done for the inputs that come after. -/
structure Stopped (m : Machine) (edit : Edit) (before : List Text) (f : Text) (q : Outcome) :
    Prop where
  stdout : q.stdout = (before ++ [f]).flatMap fun i => (batch m false edit [i]).stdout
  stderr : q.stderr = (before ++ [f]).flatMap fun i => (batch m false edit [i]).stderr
  code : q.code = 1
  files : q.files = (batch m false edit before).files

theorem ofBatch_done {o : Options} {p : Progress} (h : p.failure = none) :
    ofBatch o p = ⟨if o.check && p.changed then 1 else 0, p.out, p.err, p.files⟩ := by
  simp [ofBatch, code, h]

theorem ofBatch_failed {o : Options} {p : Progress} {e : Failure} (h : p.failure = some e) :
    ofBatch o p = ⟨1, p.out, p.err ++ e.display, p.files⟩ := by
  simp [ofBatch, code, h]

section

variable {o : Options} (edit : Edit) (ho : o = ⟨check, m.colored⟩)
  (h : Apart m.files m.stdin inputs) (hgoes : ∀ i ∈ inputs, ¬ Refused o edit m.files i)
include ho h hgoes

theorem batch_apart : batch m check edit inputs =
      ⟨if check && inputs.any fun i => (alone o edit m.files m.stdin i).changed then 1 else 0,
        inputs.flatMap fun i => (alone o edit m.files m.stdin i).out,
        inputs.flatMap fun i => (alone o edit m.files m.stdin i).err,
        m.files.replaceAll (inputs.filterMap (written? o edit m.files))⟩ := by
  subst ho
  let o : Options := ⟨check, m.colored⟩
  let p := Batch.run o edit (start m.files m.stdin) inputs
  obtain ⟨hsaid, hfiles⟩ : Gathers o edit (start m.files m.stdin) inputs p :=
    run_gathers rfl h hgoes
  have hfailure : p.failure = none := congrArg Said.failure hsaid
  have hout : p.out = _ := congrArg Said.out hsaid
  have herr : p.err = _ := congrArg Said.err hsaid
  have hchanged : p.changed = _ := congrArg Said.changed hsaid
  simp only [Said.all, Progress.said, List.flatMap_map, List.any_map, start, List.nil_append,
    Bool.false_or, Function.comp_def] at hout herr hchanged
  have hbatch : batch m check edit inputs = ofBatch o p := rfl
  rw [hbatch, ofBatch_done hfailure, hout, herr, hchanged, hfiles]
  rfl

theorem batch_alone {i : Text} (hi : i ∈ inputs) : batch m check edit [i] =
      ⟨if check && (alone o edit m.files m.stdin i).changed then 1 else 0,
        (alone o edit m.files m.stdin i).out, (alone o edit m.files m.stdin i).err,
        (alone o edit m.files m.stdin i).files⟩ := by
  subst ho
  have hfailure : (alone ⟨check, m.colored⟩ edit m.files m.stdin i).failure = none :=
    alone_failure (fun hin => h.given (hin ▸ hi)) (hgoes i hi)
  exact ofBatch_done hfailure

theorem composed : Composed m check edit inputs := by
  have hbatch := batch_apart edit ho h hgoes
  have halone {i : Text} (hi : i ∈ inputs) := batch_alone edit ho h hgoes hi
  constructor
  · rw [hbatch]
    exact List.flatMap_congr fun i hi => by rw [halone hi]
  · rw [hbatch]
    exact List.flatMap_congr fun i hi => by rw [halone hi]
  · have hsingle : (∃ i ∈ inputs, (batch m check edit [i]).code = 1) ↔
        check = true ∧ ∃ i ∈ inputs, (alone o edit m.files m.stdin i).changed = true := by
      constructor
      · rintro ⟨i, hi, hcode⟩
        rw [halone hi] at hcode
        have hboth : check = true ∧ (alone o edit m.files m.stdin i).changed = true := by
          simpa using hcode
        exact ⟨hboth.1, i, hi, hboth.2⟩
      · rintro ⟨hcheck, i, hi, hchanged⟩
        exact ⟨i, hi, by rw [halone hi]; simp [hcheck, hchanged]⟩
    rw [hbatch]
    simp only [hsingle, Bool.and_eq_true, List.any_eq_true, ← and_assoc, and_self]
  · intro i hi l hl
    rw [hbatch, halone hi, alone_files]
    exact h.at?_writes hi hl
  · intro l hl
    rw [hbatch]
    apply at?_replaceAll_other
    intro w hw heq
    obtain ⟨i, hi, hwrite⟩ := List.mem_filterMap.mp hw
    exact hl i hi (heq ▸ named?_of_written? hwrite)
  · rw [hbatch]
    exact ⟨replaceAll_places _, replaceAll_folders _⟩
  · intro i hin hcontent
    have hsingle : batch m check edit [i] =
        ofBatch ⟨check, m.colored⟩ (alone ⟨check, m.colored⟩ edit m.files m.stdin i) := rfl
    rw [hsingle, alone_unreadable hin (text?_eq_none_iff.mpr hcontent), ofBatch_done rfl]
    simp
  · intro inputs' hperm
    have hgoes' : ∀ i ∈ inputs', ¬ Refused o edit m.files i := fun i hi =>
      hgoes i (hperm.mem_iff.mpr hi)
    rw [hbatch, batch_apart edit ho (h.perm hperm) hgoes']
    have hwrites : m.files.replaceAll (inputs.filterMap (written? o edit m.files)) =
        m.files.replaceAll (inputs'.filterMap (written? o edit m.files)) :=
      replaceAll_perm (hperm.filterMap _) h.writes_nodup
    exact ⟨hwrites.symm, by rw [hperm.any_eq]⟩

end

theorem stopped (edit : Edit) {before after : List Text} {f : Text}
    (h : Apart m.files m.stdin (before ++ f :: after))
    (hgoes : ∀ i ∈ before, ¬ Refused ⟨false, m.colored⟩ edit m.files i)
    (hf : Refused ⟨false, m.colored⟩ edit m.files f) :
    Stopped m edit before f (batch m false edit (before ++ f :: after)) := by
  let o : Options := ⟨false, m.colored⟩
  let p := Batch.run o edit (start m.files m.stdin) before
  let a := alone o edit m.files m.stdin f
  let b := alone o edit p.files p.stdin f
  have hbefore : Apart m.files m.stdin before := h.sublist (List.sublist_append_left _ _)
  obtain ⟨hsaid, hfiles⟩ : Gathers o edit (start m.files m.stdin) before p :=
    run_gathers rfl hbefore hgoes
  have hp : p.failure = none := congrArg Said.failure hsaid
  -- The files that are written before are other files than the one that is refused.
  have hmatching : Matching p.files m.files f := by
    rw [hfiles]
    apply matching_replaceAll
    intro w hw
    obtain ⟨i, hi, hwrite⟩ := List.mem_filterMap.mp hw
    exact (List.pairwise_append.mp h.pairwise).2.2 i hi f (by simp) w.1 (named?_of_written? hwrite)
  have hsame : b.said = a.said := hmatching.said fun hin => absurd hin hf.2.1
  obtain ⟨hfailure, -⟩ : a.failure = some (.refusedWrite f) ∧ a.files = m.files := alone_refused hf
  obtain ⟨hfailed, hleft⟩ : b.failure = some (.refusedWrite f) ∧ b.files = p.files :=
    alone_refused (hmatching.refused.mpr hf)
  -- The step that is refused its write is the last one that does anything.
  have hrun : Batch.run o edit (start m.files m.stdin) (before ++ f :: after) = p.followed b := by
    have hstep : Batch.step o edit p f = p.followed b := step_alone hp
    have hstops : (p.followed b).failure.isSome = true := by
      rw [show (p.followed b).failure = b.failure from rfl, hfailed]
      rfl
    rw [Batch.run, List.foldl_append, List.foldl_cons]
    show (Batch.run o edit (Batch.step o edit p f) after) = p.followed b
    rw [hstep, run_failed hstops]
  have hwhole : batch m false edit (before ++ f :: after) =
      ⟨1, p.out ++ b.out, p.err ++ b.err ++ (Failure.refusedWrite f).display, b.files⟩ := by
    rw [batch, hrun]
    exact ofBatch_failed hfailed
  have hsingle : batch m false edit [f] =
      ⟨1, a.out, a.err ++ (Failure.refusedWrite f).display, a.files⟩ := ofBatch_failed hfailure
  have hfront : batch m false edit before = ⟨0, p.out, p.err, p.files⟩ := ofBatch_done hp
  have hcomposed : Composed m false edit before := composed edit rfl hbefore hgoes
  have hout : b.out = a.out := congrArg Said.out hsame
  have herr : b.err = a.err := congrArg Said.err hsame
  constructor
  · rw [List.flatMap_append, ← hcomposed.stdout, List.flatMap_singleton, hwhole, hfront, hsingle,
      hout]
  · rw [List.flatMap_append, ← hcomposed.stderr, List.flatMap_singleton, hwhole, hfront, hsingle,
      herr, List.append_assoc]
  · rw [hwhole]
  · rw [hwhole, hfront]
    exact hleft

/-- A batch over inputs apart does what the runs on its inputs alone do, in the
order of the inputs; the order does not count for the files and the code. The first
write that is refused ends it. -/
theorem batch_composes (h : Apart m.files m.stdin inputs) :
    ((∀ i ∈ inputs, ¬ Refused ⟨check, m.colored⟩ edit m.files i) → Composed m check edit inputs) ∧
    ∀ before f after, inputs = before ++ f :: after →
      (∀ i ∈ before, ¬ Refused ⟨check, m.colored⟩ edit m.files i) →
      Refused ⟨check, m.colored⟩ edit m.files f →
      Stopped m edit before f (batch m check edit inputs) := by
  refine ⟨composed edit rfl h, ?_⟩
  rintro before f after rfl hgoes hf
  obtain rfl : check = false := hf.1
  exact stopped edit h hgoes hf

def documented (folders : List Folder) : Machine :=
  ⟨⟨[(["a.gd".toList], .text "\"\"\"A.\"\"\"\nvar a".toList), (["b.gd".toList], .bytes [0xFF]),
      (["c.gd".toList], .text "# C.\n".toList)], folders, []⟩,
    .text "\"\"\"B.\"\"\"\n".toList, none, false⟩

def documentedInputs : List Text :=
  ["./c.gd".toList, "a.gd".toList, "gone.gd".toList, ['-'], "b.gd".toList]

theorem documented_composed : Apart (documented []).files (documented []).stdin documentedInputs ∧
    (batch (documented []) false Edits.converting documentedInputs).stdout =
      "organized a.gd\n# B.\n".toList ∧
    (batch (documented []) false Edits.converting documentedInputs).stderr =
      "warn: cannot read gone.gd\nwarn: cannot read b.gd\n".toList ∧
    (batch (documented []) false Edits.converting documentedInputs).files.at? ["a.gd".toList] =
      some (.text "# A.\nvar a".toList) ∧
    (batch (documented []) false Edits.converting documentedInputs).files.files.map Prod.fst =
      [["a.gd".toList], ["b.gd".toList], ["c.gd".toList]] ∧
    (batch (documented []) true Edits.converting documentedInputs).code = 1 ∧
    (batch (documented [⟨[], true⟩]) false Edits.converting documentedInputs).stderr =
      "Error: write a.gd\n\nCaused by:\n    the file cannot be made\n".toList ∧
    (batch (documented [⟨[], true⟩]) false Edits.converting documentedInputs).files.at?
      ["a.gd".toList] = some (.text "\"\"\"A.\"\"\"\nvar a".toList) := by
  have hopen : Apart (documented []).files (documented []).stdin documentedInputs :=
    ⟨by decide, by decide, fun _ => ⟨_, rfl⟩⟩
  have hlocked : Apart (documented [⟨[], true⟩]).files (documented [⟨[], true⟩]).stdin
      documentedInputs := ⟨by decide, by decide, fun _ => ⟨_, rfl⟩⟩
  have hwriting : Composed (documented []) false Edits.converting documentedInputs :=
    (batch_composes hopen).1 (by decide)
  have hchecking : Composed (documented []) true Edits.converting documentedInputs :=
    (batch_composes hopen).1 (by decide)
  have hstopped : Stopped (documented [⟨[], true⟩]) Edits.converting ["./c.gd".toList] "a.gd".toList
      (batch (documented [⟨[], true⟩]) false Edits.converting documentedInputs) :=
    (batch_composes hlocked).2 _ _ _ rfl (by decide) (by decide)
  refine ⟨hopen, ?_, ?_, ?_, ?_, ?_, ?_, ?_⟩
  · rw [hwriting.stdout]
    decide
  · rw [hwriting.stderr]
    decide
  · rw [hwriting.named "a.gd".toList (by decide) _ (by decide)]
    decide
  · rw [hwriting.places.1]
    decide
  · rw [hchecking.code]
    decide
  · rw [hstopped.stderr]
    decide
  · rw [hstopped.files]
    decide

end Session

end ScriptOrder
