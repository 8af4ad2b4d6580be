import ScriptOrder.TomlScalar
import ScriptOrder.TomlString

/-!
# TOML documents

A document is read into statements: a key with its value, or the header of a
table. What the statements together define is left to their reader, but an
inline table is refused here if two of its keys collide. Arrays and inline
tables nest less than eighty deep, and a key has less than eighty parts.
-/

set_option autoImplicit false

namespace ScriptOrder.Toml
open TomlString

abbrev Key := List Char

abbrev Path := List Key

inductive Value where
  | string (text : List Char)
  | boolean (b : Bool)
  | number
  | time
  | array (items : List Value)
  | table (entries : List (Path × Value))

inductive Statement where
  | entry (path : Path) (value : Value)
  | header (path : Path)
  | listHeader (path : Path)

def collide : Path → Path → Bool
  | [], _ => true
  | _, [] => true
  | a :: as, b :: bs => a = b && collide as bs

/-- Whether no two paths collide, so that each entry defines a value of its
own. -/
def areApart : List Path → Bool
  | [] => true
  | p :: ps => ps.all (fun q => !collide p q) && areApart ps

abbrev Reader (α : Type) := List Char → Option (α × List Char)

def dropSpace (s : List Char) : List Char := s.dropWhile isSpace

def dropComment : List Char → List Char
  | '#' :: rest => rest.dropWhile isPlain
  | s => s

/-- The rest after a line break, or after the end of the input. -/
def lineBreak? : List Char → Option (List Char)
  | [] => some []
  | '\n' :: rest => some rest
  | '\r' :: '\n' :: rest => some rest
  | _ => none

def lineEnd? (s : List Char) : Option (List Char) := lineBreak? (dropComment (dropSpace s))

/-- Drops spaces, line breaks and comments; the flag says that a comment has
begun. -/
def dropFiller : Bool → List Char → List Char
  | _, [] => []
  | _, '\n' :: rest => dropFiller false rest
  | _, '\r' :: '\n' :: rest => dropFiller false rest
  | true, c :: rest => if isPlain c then dropFiller true rest else c :: rest
  | false, c :: rest =>
    if isSpace c then dropFiller false rest
    else if c = '#' then dropFiller true rest
    else c :: rest

def isBare (c : Char) : Bool := c.isAlphanum || c = '_' || c = '-'

def key? : Reader Key
  | '"' :: rest => basic rest
  | '\'' :: rest => literal rest
  | s =>
    match s.takeWhile isBare with
    | [] => none
    | k => some (k, s.dropWhile isBare)

def path? (parts : Nat) (s : List Char) : Option (Path × List Char) :=
  match parts with
  | 0 => none
  | parts + 1 =>
    match key? (dropSpace s) with
    | none => none
    | some (k, rest) =>
      match dropSpace rest with
      | '.' :: rest => (path? parts rest).map fun (ks, last) => (k :: ks, last)
      | rest => some ([k], rest)

def longestPath : Nat := 79

def keyValue? (value : Reader Value) (s : List Char) : Option ((Path × Value) × List Char) :=
  match path? longestPath s with
  | some (path, '=' :: rest) => (value (dropSpace rest)).map fun (v, last) => ((path, v), last)
  | _ => none

def items? (value : Reader Value) : Nat → Reader (List Value)
  | 0, _ => none
  | fuel + 1, s =>
    match dropFiller false s with
    | ']' :: rest => some ([], rest)
    | s =>
      match value s with
      | none => none
      | some (v, rest) =>
        match dropFiller false rest with
        | ']' :: rest => some ([v], rest)
        | ',' :: rest => (items? value fuel rest).map fun (vs, last) => (v :: vs, last)
        | _ => none

def entries? (value : Reader Value) : Nat → Reader (List (Path × Value))
  | 0, _ => none
  | fuel + 1, s =>
    match keyValue? value s with
    | none => none
    | some (e, rest) =>
      match dropSpace rest with
      | '}' :: rest => some ([e], rest)
      | ',' :: rest => (entries? value fuel rest).map fun (es, last) => (e :: es, last)
      | _ => none

def table? (value : Reader Value) (s : List Char) : Option (Value × List Char) :=
  match dropSpace s with
  | '}' :: rest => some (.table [], rest)
  | s =>
    match entries? value s.length s with
    | some (es, rest) => if areApart (es.map Prod.fst) then some (.table es, rest) else none
    | none => none

def scalar? (s : List Char) : Option (Value × List Char) :=
  match s with
  | 't' :: 'r' :: 'u' :: 'e' :: rest => some (.boolean true, rest)
  | 'f' :: 'a' :: 'l' :: 's' :: 'e' :: rest => some (.boolean false, rest)
  | s =>
    match string? s with
    | some (text, rest) => some (.string text, rest)
    | none =>
      match TomlScalar.time? s with
      | some rest => some (.time, rest)
      | none => (TomlScalar.number? s).map fun rest => (.number, rest)

/-- A value that nests arrays and inline tables at most `depth` deep. -/
def value? : Nat → Reader Value
  | 0, s => scalar? s
  | depth + 1, s =>
    match s with
    | '[' :: rest =>
      (items? (value? depth) s.length rest).map fun (vs, last) => (.array vs, last)
    | '\x7b' :: rest => table? (value? depth) rest
    | s => scalar? s

def deepestValue : Nat := 79

def header? (s : List Char) : Option (Statement × List Char) :=
  match s with
  | '[' :: rest =>
    match path? longestPath rest with
    | some (path, ']' :: ']' :: last) => (lineEnd? last).map fun last => (.listHeader path, last)
    | _ => none
  | s =>
    match path? longestPath s with
    | some (path, ']' :: last) => (lineEnd? last).map fun last => (.header path, last)
    | _ => none

def statement? (s : List Char) : Option (Statement × List Char) :=
  match s with
  | '[' :: rest => header? rest
  | s =>
    match keyValue? (value? deepestValue) s with
    | some ((path, v), rest) => (lineEnd? rest).map fun last => (.entry path v, last)
    | none => none

def statements? : Nat → List Char → Option (List Statement)
  | 0, _ => none
  | fuel + 1, s =>
    match dropSpace s with
    | [] => some []
    | c :: rest =>
      if c = '#' ∨ c = '\n' ∨ c = '\r' then (lineEnd? (c :: rest)).bind (statements? fuel)
      else match statement? (c :: rest) with
        | none => none
        | some (st, last) => (statements? fuel last).map (st :: ·)

def dropByteOrderMark : List Char → List Char
  | '\uFEFF' :: rest => rest
  | s => s

def document? (s : List Char) : Option (List Statement) :=
  statements? (s.length + 1) (dropByteOrderMark s)

end ScriptOrder.Toml
