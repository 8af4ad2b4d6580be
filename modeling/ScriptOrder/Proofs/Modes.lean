import Mathlib.Data.List.Basic
import ScriptOrder.Proofs.Stores
import ScriptOrder.Session

/-!
# The modes of a run

An edit of one text can be asked for in four ways: on a file or on the text
handed to the command, each with a check or without. Each of the four is the one
step of a batch, and a check changes no file.
-/

set_option autoImplicit false

namespace ScriptOrder

namespace Batch

variable {o : Options} {edit : Edit}

end Batch

namespace Edits

def Nameless (edit : Edit) : Prop := ∀ name name' x, (edit name x).text = (edit name' x).text

theorem Nameless.edited {edit : Edit} (h : Nameless edit) (name name' x : Text) :
    Batch.edited edit name x = Batch.edited edit name' x := by
  rw [Batch.edited, Batch.edited, h name name' x]

end Edits

namespace Request

def asking (r : Request) (checking : Bool) (inputs : List Text) : Request :=
  { r with inputs, switches := (if checking then [.check] else []) ++
      r.switches.filter fun s => s != .check }

variable {r : Request} {checking : Bool} {inputs : List Text}

theorem asking_check : (r.asking checking inputs).has .check = checking := by
  cases checking <;> simp [asking, has]

theorem asking_has {s : Switch} (h : s ≠ .check) : (r.asking checking inputs).has s = r.has s := by
  have hs : ∀ t ∈ r.switches, t = s → ¬ t = .check := fun t _ ht => ht ▸ h
  cases checking <;> simp [asking, has, h]

end Request

namespace Session
open Batch

variable {m : Machine} {r : Request} {s : Settings}

def editing (m : Machine) (r : Request) (s : Settings) : Edit :=
  match r.subcommand with
  | .convert => Edits.converting
  | _ => organizing m r s

theorem editing_asking (checking : Bool) (inputs : List Text) :
    editing m (r.asking checking inputs) s = editing m r s := by
  have hconvert : (r.asking checking inputs).has .convertMultiline = r.has .convertMultiline :=
    Request.asking_has (by decide)
  have hpretty : (r.asking checking inputs).has .prettyErrors = r.has .prettyErrors :=
    Request.asking_has (by decide)
  rw [editing, editing, organizing, organizing, hconvert, hpretty]
  rfl

theorem perform_batch (hr : r.subcommand ≠ .classify) :
    perform m r s = batch m (r.has .check) (editing m r s) r.inputs := by
  cases hc : r.subcommand with
  | organize => simp [perform, editing, hc]
  | convert => simp [perform, editing, hc]
  | classify => exact absurd hc hr

theorem answer_asking (hr : r.subcommand ≠ .classify) (hs : settings m r.config = .ok s)
    (checking : Bool) (inputs : List Text) :
    answer m (.run (r.asking checking inputs)) = batch m checking (editing m r s) inputs := by
  have hsettings : settings m (r.asking checking inputs).config = .ok s := hs
  have hasking : (r.asking checking inputs).subcommand ≠ .classify := hr
  simp only [answer, hsettings]
  rw [perform_batch hasking, Request.asking_check, editing_asking]
  rfl

theorem batch_single (edit : Edit) (checking : Bool) (input : Text) :
    batch m checking edit [input] = ofBatch ⟨checking, m.colored⟩
      (if input = ['-'] then onStdin ⟨checking, m.colored⟩ edit (start m.files m.stdin)
        else onFile ⟨checking, m.colored⟩ edit (start m.files m.stdin) input) := rfl

section

variable {f x : Text} (edit : Edit) (hf : f ≠ ['-']) (hx : m.files.text? f = some x)
include hf hx

theorem write_refused (hc : changes edit f x = true) (hr : m.files.refuses f = true) :
    (batch m false edit [f]).files = m.files ∧ (batch m false edit [f]).code = 1 := by
  obtain ⟨l, -, -, hwrite⟩ := FileStore.write?_of_text? hx
  have hnone := hwrite (edited edit f x)
  rw [hr, if_pos rfl] at hnone
  rw [batch_single, if_neg hf, onFile, ofBatch, start]
  simp [hx, hc, hnone, code]

theorem write_file : (batch m false edit [f]).files.content? f = some (.text
    (if changes edit f x && !m.files.refuses f then edited edit f x else x)) := by
  have hheld : m.files.content? f = some (.text x) := FileStore.content?_of_text? hx
  cases hc : changes edit f x with
  | false =>
    rw [batch_single, if_neg hf, onFile, ofBatch, start]
    simpa [hx, hc] using hheld
  | true =>
    cases hr : m.files.refuses f with
    | true =>
      rw [(write_refused edit hf hx hc hr).1]
      exact hheld
    | false =>
      obtain ⟨l, -, -, hwrite⟩ := FileStore.write?_of_text? hx
      have hsome := hwrite (edited edit f x)
      rw [hr, if_neg Bool.false_ne_true] at hsome
      rw [batch_single, if_neg hf, onFile, ofBatch, start]
      simp only [hx, hc, hsome, if_true]
      exact FileStore.content?_write? hsome

theorem check_file : (batch m true edit [f]).stdout = (if changes edit f x then f ++ ['\n'] else []) ∧
    (batch m true edit [f]).code = if changes edit f x then 1 else 0 := by
  rw [batch_single, if_neg hf, onFile, ofBatch, start]
  simp only [hx]
  split <;> exact ⟨rfl, rfl⟩

end

def handed (m : Machine) (x : Text) : Machine := { m with stdin := .text x }

theorem print_stdin (edit : Edit) (x : Text) :
    (batch (handed m x) false edit [['-']]).stdout = edited edit stdinName x := rfl

theorem check_stdin (edit : Edit) (x : Text) : (batch (handed m x) true edit [['-']]).stdout =
      (if changes edit stdinName x then stdinName ++ ['\n'] else []) ∧
    (batch (handed m x) true edit [['-']]).code = if changes edit stdinName x then 1 else 0 := by
  rw [batch_single, if_pos rfl, onStdin, ofBatch, start, handed]
  simp only [if_true]
  split <;> exact ⟨rfl, rfl⟩

/-- What a request prints for a text handed to the command. -/
def printed (m : Machine) (r : Request) (x : Text) : Text :=
  (answer (handed m x) (.run (r.asking false [['-']]))).stdout

theorem printed_eq (hr : r.subcommand ≠ .classify) (hs : settings m r.config = .ok s) (x : Text) :
    printed m r x = edited (editing m r s) stdinName x := by
  have hin : settings (handed m x) r.config = .ok s := hs
  rw [printed, answer_asking hr hin]
  exact print_stdin _ x

end Session

end ScriptOrder
