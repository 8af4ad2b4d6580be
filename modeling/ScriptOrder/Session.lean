import ScriptOrder.Edits
import ScriptOrder.Listing
import ScriptOrder.Request
import ScriptOrder.Settings

/-!
# Sessions

One call of the command on a machine: its arguments, its files and the text
handed to it decide what is printed, the exit code and the files afterwards. The
log is left out: the lines that the command logs at `warn`, as it does unless told
otherwise, are no part of `stderr` here.
-/

set_option autoImplicit false

namespace ScriptOrder

structure Machine where
  files : FileStore
  stdin : Content
  home : Option Text
  colored : Bool

structure Outcome where
  code : Nat
  stdout : Text
  stderr : Text
  files : FileStore

namespace Session

def localSettings : Text := "gdorganize.toml".toList

def userSettings (home : Text) : Text := home ++ "/.gdorganize/config.toml".toList

/-- The settings file to read: the one asked for, else the one in the working
folder, else the user's own. Only the first is taken unseen. -/
def configName? (m : Machine) (asked : Option Text) : Option Text :=
  match asked with
  | some name => some name
  | none =>
    if m.files.isFile localSettings then some localSettings
    else (m.home.map userSettings).filter m.files.isFile

def settings (m : Machine) (asked : Option Text) : Except Failure Settings :=
  match configName? m asked with
  | none => .ok .default
  | some name =>
    match m.files.text? name with
    | none => .error (.unreadableConfig name)
    | some t =>
      match Settings.read? t with
      | none => .error (.invalidConfig name)
      | some s => .ok s

def failed (m : Machine) (f : Failure) : Outcome := ⟨1, [], f.display, m.files⟩

def ofBatch (o : Batch.Options) (p : Batch.Progress) : Outcome :=
  let err := match p.failure with
    | some f => p.err ++ f.display
    | none => p.err
  ⟨Batch.code o p, p.out, err, p.files⟩

def batch (m : Machine) (check : Bool) (edit : Edit) (inputs : List Text) : Outcome :=
  let o : Batch.Options := ⟨check, m.colored⟩
  ofBatch o (Batch.run o edit (Batch.start m.files m.stdin) inputs)

def classify (m : Machine) (rules : Rulebook) (input : Text) : Outcome :=
  match m.files.text? input with
  | none => failed m (.unreadableScript input)
  | some x =>
    ⟨0, Listing.listing rules m.colored x, Listing.warnings m.colored x, m.files⟩

def organizing (m : Machine) (r : Request) (s : Settings) : Edit :=
  Edits.arranging s.rulebook (r.has .convertMultiline || s.convertMultiline)
    (r.has .prettyErrors) m.colored

def perform (m : Machine) (r : Request) (s : Settings) : Outcome :=
  match r.subcommand with
  | .organize => batch m (r.has .check) (organizing m r s) r.inputs
  | .convert => batch m (r.has .check) Edits.converting r.inputs
  | .classify => classify m s.rulebook (r.inputs.headD [])

def commandName : String := "gdorganize"

def version : String := "0.2.0"

def versionLine (subcommand : Option Subcommand) : Text :=
  let name := match subcommand with
    | some c => commandName ++ "-" ++ c.name
    | none => commandName
  (name ++ " " ++ version ++ "\n").toList

def usage : Text :=
  ("usage: " ++ commandName ++ " [--config FILE] [--verbose] [--pretty-errors] " ++
    "(organize | convert | classify) [--check] [--convert-multiline] INPUTS\n").toList

def answer (m : Machine) (asked : Asked) : Outcome :=
  match asked with
  | .misuse => ⟨2, [], usage, m.files⟩
  | .version subcommand => ⟨0, versionLine subcommand, [], m.files⟩
  | .run r =>
    match settings m r.config with
    | .error f => failed m f
    | .ok s => perform m r s

def run (m : Machine) (args : List Text) : Outcome := answer m (Request.ofArguments args)

end Session

end ScriptOrder
