import ScriptOrder.TomlString

/-!
# TOML numbers and times

Settings hold neither numbers nor times, so each function only says whether
one is written here and what follows it. Integers have 64 bits; a float may
not round to positive infinity; dates are those of the calendar.
-/

set_option autoImplicit false

namespace ScriptOrder.TomlScalar

abbrev Rest := Option (List Char)

def digits (ds : List Char) : Nat := ds.foldl (fun n d => 10 * n + (d.toNat - '0'.toNat)) 0

/-- Digits with single underscores between them: the digits and the rest. -/
def digitRun (isDigit : Char → Bool) : List Char → List Char × List Char
  | '_' :: c :: rest =>
    if isDigit c then
      let (ds, last) := digitRun isDigit rest
      (c :: ds, last)
    else ([], '_' :: c :: rest)
  | c :: rest =>
    if isDigit c then
      let (ds, last) := digitRun isDigit rest
      (c :: ds, last)
    else ([], c :: rest)
  | [] => ([], [])

def someDigits? (isDigit : Char → Bool) : List Char → Option (List Char × List Char)
  | [] => none
  | c :: rest =>
    if isDigit c then
      let (ds, last) := digitRun isDigit rest
      some (c :: ds, last)
    else none

def sign : List Char → Bool × List Char
  | '-' :: rest => (true, rest)
  | '+' :: rest => (false, rest)
  | s => (false, s)

/-- A decimal integer without needless zeros: whether it is negative, its
digits and the rest. -/
def decimal? (s : List Char) : Option (Bool × List Char × List Char) :=
  match sign s with
  | (negative, '0' :: rest) => some (negative, ['0'], rest)
  | (negative, s) => (someDigits? Char.isDigit s).map fun (ds, rest) => (negative, ds, rest)

def fraction? : List Char → Option (List Char × List Char)
  | '.' :: rest => someDigits? Char.isDigit rest
  | _ => none

def exponent? : List Char → Option (Int × List Char)
  | c :: rest =>
    if c = 'e' ∨ c = 'E' then
      let (negative, s) := sign rest
      (someDigits? Char.isDigit s).map fun (ds, last) =>
        (if negative then -(digits ds : Int) else digits ds, last)
    else none
  | [] => none

/-- The least number that rounds to infinity in 64-bit binary floating point. -/
def infinite : Nat := Nat.pow 2 1024 - Nat.pow 2 970

/-- Whether `m * 10 ^ e` is at least `infinite`. Powers are formed only where
the number of digits does not decide. -/
def isInfinite (m : Nat) (e : Int) : Bool :=
  let size : Int := (Nat.toDigits 10 m).length
  if m = 0 then false
  else if 309 < size + e then true
  else if size + e < 309 then false
  else if 0 ≤ e then decide (infinite ≤ m * Nat.pow 10 e.toNat)
  else decide (infinite * Nat.pow 10 (-e).toNat ≤ m)

def float? (s : List Char) : Rest :=
  match decimal? s with
  | none => none
  | some (negative, ds, rest) =>
    let check (ds places : List Char) (e : Int) (last : List Char) : Rest :=
      if !negative && isInfinite (digits (ds ++ places)) (e - places.length) then none
      else some last
    match fraction? rest with
    | some (places, last) =>
      match exponent? last with
      | some (e, last) => check ds places e last
      | none => check ds places 0 last
    | none =>
      match exponent? rest with
      | some (e, last) => check ds [] e last
      | none => none

def special? (s : List Char) : Rest :=
  match (sign s).2 with
  | 'i' :: 'n' :: 'f' :: rest => some rest
  | 'n' :: 'a' :: 'n' :: rest => some rest
  | _ => none

def isOctal (c : Char) : Bool := '0' ≤ c && c ≤ '7'

def isBinary (c : Char) : Bool := c = '0' || c = '1'

def isHex (c : Char) : Bool := (TomlString.hexDigit? c).isSome

def hexValue (c : Char) : Nat := (TomlString.hexDigit? c).getD 0

def based? (base : Nat) (isDigit : Char → Bool) (s : List Char) : Rest :=
  (someDigits? isDigit s).bind fun (ds, rest) =>
    if ds.foldl (fun n d => base * n + hexValue d) 0 < Nat.pow 2 63 then some rest else none

def integer? : List Char → Rest
  | '0' :: 'x' :: rest => based? 16 isHex rest
  | '0' :: 'o' :: rest => based? 8 isOctal rest
  | '0' :: 'b' :: rest => based? 2 isBinary rest
  | s =>
    match decimal? s with
    | none => none
    | some (negative, ds, rest) =>
      if digits ds < Nat.pow 2 63 + (if negative then 1 else 0) then some rest else none

def twoDigits? : List Char → Option (Nat × List Char)
  | a :: b :: rest => if a.isDigit && b.isDigit then some (digits [a, b], rest) else none
  | _ => none

def mark? (c : Char) : List Char → Rest
  | d :: rest => if c = d then some rest else none
  | [] => none

def between? (lo hi : Nat) (s : List Char) : Option (Nat × List Char) :=
  (twoDigits? s).bind fun (n, rest) => if lo ≤ n ∧ n ≤ hi then some (n, rest) else none

def isLeap (year : Nat) : Bool := year % 4 = 0 && (year % 100 != 0 || year % 400 = 0)

def daysIn (year month : Nat) : Nat :=
  if month = 2 then (if isLeap year then 29 else 28)
  else if month = 4 ∨ month = 6 ∨ month = 9 ∨ month = 11 then 30
  else 31

def date? (s : List Char) : Rest := do
  let (century, s) ← twoDigits? s
  let (years, s) ← twoDigits? s
  let s ← mark? '-' s
  let (month, s) ← between? 1 12 s
  let s ← mark? '-' s
  let (_, s) ← between? 1 (daysIn (100 * century + years) month) s
  some s

def clock? (s : List Char) : Rest := do
  let (_, s) ← between? 0 23 s
  let s ← mark? ':' s
  let (_, s) ← between? 0 59 s
  let s ← mark? ':' s
  let (_, s) ← between? 0 60 s
  match s with
  | '.' :: c :: rest => if c.isDigit then some (rest.dropWhile Char.isDigit) else some s
  | s => some s

def offset? : List Char → Rest
  | [] => none
  | c :: rest =>
    if c = 'Z' ∨ c = 'z' then some rest
    else if c = '+' ∨ c = '-' then do
      let (_, s) ← between? 0 23 rest
      let s ← mark? ':' s
      let (_, s) ← between? 0 59 s
      some s
    else none

def timeOfDay? : List Char → Rest
  | [] => none
  | c :: rest =>
    if c = 'T' ∨ c = 't' ∨ c = ' ' then
      (clock? rest).map fun s => (offset? s).getD s
    else none

def time? (s : List Char) : Rest :=
  match date? s with
  | some rest => some ((timeOfDay? rest).getD rest)
  | none => clock? s

/-- A float is tried before an integer, which may be its beginning. -/
def number? (s : List Char) : Rest := (float? s).or ((special? s).or (integer? s))

end ScriptOrder.TomlScalar
