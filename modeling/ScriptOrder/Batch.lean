import ScriptOrder.FileStore
import ScriptOrder.Paint

/-!
# Batches

A batch edits its inputs one after another. The input `-` is the text handed
to the command; every other input is a file. An edit that changes nothing but
the style of the line breaks and one final break leaves the file alone. A
check writes nothing and reports the inputs that would change. A write that is
refused ends the batch. What is printed always arrives.
-/

set_option autoImplicit false

namespace ScriptOrder
open Paint

structure Edited where
  text : Text
  report : Text
deriving DecidableEq, Repr

/-- An edit takes the name to show and the text. -/
abbrev Edit := Text → Text → Edited

inductive Failure where
  | unreadableConfig (name : Text)
  | invalidConfig (name : Text)
  | unreadableScript (name : Text)
  | undecodableInput
  | refusedWrite (name : Text)
deriving DecidableEq, Repr

namespace Failure

def message : Failure → Text
  | unreadableConfig name => "cannot read config ".toList ++ name ++ [':']
  | invalidConfig name => "invalid config ".toList ++ name ++ [':']
  | unreadableScript name => "read ".toList ++ name
  | undecodableInput => "read script from stdin".toList
  | refusedWrite name => "write ".toList ++ name

def cause : Failure → Text
  | unreadableConfig _ => " no text can be read".toList
  | invalidConfig _ => " these are no settings".toList
  | unreadableScript _ => "\n\nCaused by:\n    no text can be read".toList
  | undecodableInput => "\n\nCaused by:\n    stream did not contain valid UTF-8".toList
  | refusedWrite _ => "\n\nCaused by:\n    the file cannot be made".toList

def display (f : Failure) : Text := "Error: ".toList ++ f.message ++ f.cause ++ ['\n']

end Failure

namespace Batch

structure Options where
  check : Bool
  colored : Bool
deriving DecidableEq, Repr

structure Progress where
  files : FileStore
  stdin : Content
  out : Text
  err : Text
  changed : Bool
  failure : Option Failure

def start (files : FileStore) (stdin : Content) : Progress := ⟨files, stdin, [], [], false, none⟩

def edited (edit : Edit) (name x : Text) : Text := Lines.restyle x (edit name x).text

/-- Whether an edit changes more than line breaks' style and a final break. -/
def changes (edit : Edit) (name x : Text) : Bool :=
  Lines.settled x != Lines.settled (edited edit name x)

def stdinName : Text := "<stdin>".toList

def warnLine (colored : Bool) (s : Text) : Text :=
  paint colored (some alert) "warn:".toList ++ ' ' :: s ++ ['\n']

def doneLine (colored : Bool) (name : Text) : Text :=
  paint colored (some success) "organized".toList ++ ' ' :: name ++ ['\n']

def onStdin (o : Options) (edit : Edit) (p : Progress) : Progress :=
  match p.stdin with
  | .bytes _ => { p with failure := some .undecodableInput }
  | .text x =>
    let p := { p with stdin := .text [], err := p.err ++ (edit stdinName x).report }
    if o.check then
      if changes edit stdinName x then
        { p with out := p.out ++ stdinName ++ ['\n'], changed := true }
      else p
    else { p with out := p.out ++ edited edit stdinName x }

def onFile (o : Options) (edit : Edit) (p : Progress) (name : Text) : Progress :=
  match p.files.text? name with
  | none => { p with err := p.err ++ warnLine o.colored ("cannot read ".toList ++ name) }
  | some x =>
    let p := { p with err := p.err ++ (edit name x).report }
    if changes edit name x then
      let p := { p with changed := true }
      if o.check then { p with out := p.out ++ name ++ ['\n'] }
      else match p.files.write? name (edited edit name x) with
        | none => { p with failure := some (.refusedWrite name) }
        | some files => { p with files, out := p.out ++ doneLine o.colored name }
    else p

def step (o : Options) (edit : Edit) (p : Progress) (input : Text) : Progress :=
  if p.failure.isSome then p
  else if input = ['-'] then onStdin o edit p
  else onFile o edit p input

def run (o : Options) (edit : Edit) (p : Progress) (inputs : List Text) : Progress :=
  inputs.foldl (step o edit) p

def code (o : Options) (p : Progress) : Nat :=
  if p.failure.isSome || (o.check && p.changed) then 1 else 0

end Batch

end ScriptOrder
