import ScriptOrder.Lines

/-!
# Requests

What the arguments of the command ask for. Arguments are read from left to
right; some options may stand before the subcommand or after it. The first
fault makes the arguments a misuse, and a request for the version counts
where it stands, whatever follows it.
-/

set_option autoImplicit false

namespace ScriptOrder

inductive Subcommand where
  | organize
  | convert
  | classify
deriving DecidableEq, Repr

def Subcommand.name : Subcommand → String
  | organize => "organize"
  | convert => "convert"
  | classify => "classify"

def Subcommand.all : List Subcommand := [organize, convert, classify]

def Subcommand.ofName? (s : Text) : Option Subcommand :=
  all.find? fun c => c.name.toList = s

inductive Switch where
  | verbose
  | prettyErrors
  | check
  | convertMultiline
deriving DecidableEq, Repr

def Switch.name : Switch → String
  | verbose => "verbose"
  | prettyErrors => "pretty-errors"
  | check => "check"
  | convertMultiline => "convert-multiline"

def Switch.all : List Switch := [verbose, prettyErrors, check, convertMultiline]

def Switch.allowed : Switch → Option Subcommand → Bool
  | verbose, _ => true
  | prettyErrors, _ => true
  | check, c => c = some .organize || c = some .convert
  | convertMultiline, c => c = some .organize

structure Given where
  config : Option Text
  switches : List Switch
deriving DecidableEq, Repr

structure Request where
  subcommand : Subcommand
  inputs : List Text
  config : Option Text
  switches : List Switch
deriving DecidableEq, Repr

inductive Asked where
  | run (r : Request)
  | version (subcommand : Option Subcommand)
  | misuse
deriving DecidableEq, Repr

namespace Request

def has (r : Request) (s : Switch) : Bool := r.switches.contains s

structure Progress where
  before : Given
  subcommand : Option Subcommand
  current : Given
  inputs : List Text

def Progress.new : Progress := ⟨⟨none, []⟩, none, ⟨none, []⟩, []⟩

/-- A setting given twice on one side of the subcommand is a fault. -/
def setConfig (p : Progress) (value : Text) : Option Progress :=
  if p.current.config.isSome || value.isEmpty then none
  else some { p with current := { p.current with config := some value } }

def setSwitch (p : Progress) (s : Switch) : Option Progress :=
  if p.current.switches.contains s || !s.allowed p.subcommand then none
  else some { p with current := { p.current with switches := s :: p.current.switches } }

def addOperand (p : Progress) (isFree : Bool) (arg : Text) : Option Progress :=
  match p.subcommand with
  | none =>
    match Subcommand.ofName? arg with
    | some c =>
      if isFree then some { p with before := p.current, subcommand := some c, current := ⟨none, []⟩ }
      else none
    | none => none
  | some c =>
    if arg.isEmpty || (c = .classify && !p.inputs.isEmpty) then none
    else some { p with inputs := p.inputs ++ [arg] }

def addOperands : Progress → List Text → Option Progress
  | p, [] => some p
  | p, arg :: args => (addOperand p false arg).bind fun p => addOperands p args

/-- What was given after the subcommand wins over what was given before it. -/
def finish (p : Progress) : Asked :=
  match p.subcommand with
  | none => .misuse
  | some c =>
    if p.inputs.isEmpty then .misuse
    else .run ⟨c, p.inputs, p.current.config.or p.before.config,
      p.current.switches ++ p.before.switches⟩

inductive Short where
  | next (p : Progress)
  | version
  | fault

def shorts : Progress → List Char → Short
  | p, [] => .next p
  | p, 'v' :: cs =>
    match setSwitch p .verbose with
    | some p => shorts p cs
    | none => .fault
  | _, 'V' :: _ => .version
  | _, _ => .fault

inductive Long where
  | config (value : Option Text)
  | switch (s : Switch)
  | version
  | unknown

/-- The option after two hyphens; only `config` takes a value. -/
def long (arg : Text) : Long :=
  match arg.takeWhile (· != '='), arg.dropWhile (· != '=') with
  | name, [] =>
    if name = "config".toList then .config none
    else if name = "version".toList then .version
    else match Switch.all.find? fun s => s.name.toList = name with
      | some s => .switch s
      | none => .unknown
  | name, _ :: value => if name = "config".toList then .config (some value) else .unknown

def isValue (arg : Text) : Bool := arg = ['-'] || arg.head? != some '-'

def orMisuse (p : Option Progress) (k : Progress → Asked) : Asked :=
  match p with
  | some p => k p
  | none => .misuse

def read (p : Progress) : List Text → Asked
  | [] => finish p
  | ['-', '-'] :: args => orMisuse (addOperands p args) finish
  | ('-' :: '-' :: arg) :: args =>
    match long arg with
    | .config (some value) => orMisuse (setConfig p value) fun p => read p args
    | .config none =>
      match args with
      | [] => .misuse
      | value :: args =>
        if isValue value then orMisuse (setConfig p value) fun p => read p args else .misuse
    | .switch s => orMisuse (setSwitch p s) fun p => read p args
    | .version => .version p.subcommand
    | .unknown => .misuse
  | ('-' :: c :: cs) :: args =>
    match shorts p (c :: cs) with
    | .next p => read p args
    | .version => .version p.subcommand
    | .fault => .misuse
  | arg :: args => orMisuse (addOperand p true arg) fun p => read p args

def ofArguments (args : List Text) : Asked := read .new args

end Request

end ScriptOrder
