/-!
# TOML strings

The four sorts of strings. Each function reads what follows the opening
quotes and returns the text of the string and the rest of the input. Control
characters other than the tab are refused, and a line break inside a string
over several lines is read as LF.
-/

set_option autoImplicit false

namespace ScriptOrder.TomlString

abbrev Result := Option (List Char × List Char)

def push (c : Char) (r : Result) : Result := r.map fun (text, rest) => (c :: text, rest)

/-- The characters of a comment, and those of a string before its quotes and
escapes are considered. -/
def isPlain (c : Char) : Bool := c = '\t' || (0x20 ≤ c.toNat && c.toNat != 0x7F)

def isSpace (c : Char) : Bool := c = ' ' || c = '\t'

def hexDigit? (c : Char) : Option Nat :=
  if '0' ≤ c ∧ c ≤ '9' then some (c.toNat - '0'.toNat)
  else if 'a' ≤ c ∧ c ≤ 'f' then some (c.toNat - 'a'.toNat + 10)
  else if 'A' ≤ c ∧ c ≤ 'F' then some (c.toNat - 'A'.toNat + 10)
  else none

def hexChar? (digits : List Char) : Option Char :=
  match digits.mapM hexDigit? with
  | none => none
  | some ds =>
    let n := ds.foldl (fun n d => 16 * n + d) 0
    if n.isValidChar then some (Char.ofNat n) else none

def escape? : Char → Option Char
  | 'b' => some '\x08'
  | 't' => some '\t'
  | 'n' => some '\n'
  | 'f' => some '\x0c'
  | 'r' => some '\r'
  | '"' => some '"'
  | '\\' => some '\\'
  | _ => none

def pushOr (c : Option Char) (r : Result) : Result := c.bind fun c => push c r

def basic : List Char → Result
  | [] => none
  | '"' :: rest => some ([], rest)
  | '\\' :: 'u' :: a :: b :: c :: d :: rest => pushOr (hexChar? [a, b, c, d]) (basic rest)
  | '\\' :: 'U' :: a :: b :: c :: d :: e :: f :: g :: h :: rest =>
    pushOr (hexChar? [a, b, c, d, e, f, g, h]) (basic rest)
  | ['\\'] => none
  | '\\' :: c :: rest => pushOr (escape? c) (basic rest)
  | c :: rest => if isPlain c then push c (basic rest) else none

def literal : List Char → Result
  | [] => none
  | '\'' :: rest => some ([], rest)
  | c :: rest => if isPlain c then push c (literal rest) else none

def afterBreak? (s : List Char) : Option (List Char) :=
  match s.dropWhile isSpace with
  | '\n' :: rest => some rest
  | '\r' :: '\n' :: rest => some rest
  | _ => none

def dropFolded : List Char → List Char
  | ' ' :: rest => dropFolded rest
  | '\t' :: rest => dropFolded rest
  | '\n' :: rest => dropFolded rest
  | '\r' :: '\n' :: rest => dropFolded rest
  | s => s

theorem afterBreak?_length {s rest : List Char} (h : afterBreak? s = some rest) :
    rest.length < s.length := by
  have hl : (s.dropWhile isSpace).length ≤ s.length := (List.dropWhile_suffix _).length_le
  unfold afterBreak? at h
  split at h
  · rename_i hd
    simp only [Option.some.injEq] at h
    rw [hd, h, List.length_cons] at hl
    omega
  · rename_i hd
    simp only [Option.some.injEq] at h
    rw [hd, h, List.length_cons, List.length_cons] at hl
    omega
  · simp at h

theorem dropFolded_length (s : List Char) : (dropFolded s).length ≤ s.length := by
  fun_induction dropFolded s <;> simp <;> omega

/-- Up to two quotes directly before the closing three belong to the text. A
backslash before a line break hides it and all spaces and breaks after it. -/
def basicLines : List Char → Result
  | [] => none
  | '"' :: '"' :: '"' :: '"' :: '"' :: rest => some (['"', '"'], rest)
  | '"' :: '"' :: '"' :: '"' :: rest => some (['"'], rest)
  | '"' :: '"' :: '"' :: rest => some ([], rest)
  | '\\' :: 'u' :: a :: b :: c :: d :: rest => pushOr (hexChar? [a, b, c, d]) (basicLines rest)
  | '\\' :: 'U' :: a :: b :: c :: d :: e :: f :: g :: h :: rest =>
    pushOr (hexChar? [a, b, c, d, e, f, g, h]) (basicLines rest)
  | ['\\'] => none
  | '\\' :: c :: s =>
    match _h : afterBreak? (c :: s) with
    | some rest => basicLines (dropFolded rest)
    | none => pushOr (escape? c) (basicLines s)
  | '\n' :: rest => push '\n' (basicLines rest)
  | '\r' :: '\n' :: rest => push '\n' (basicLines rest)
  | c :: rest => if isPlain c then push c (basicLines rest) else none
termination_by s => s.length
decreasing_by
  all_goals simp only [List.length_cons]
  all_goals first
    | omega
    | exact Nat.lt_succ_of_le (Nat.le_trans (dropFolded_length _)
        (Nat.le_of_lt (afterBreak?_length _h)))

def literalLines : List Char → Result
  | [] => none
  | '\'' :: '\'' :: '\'' :: '\'' :: '\'' :: rest => some (['\'', '\''], rest)
  | '\'' :: '\'' :: '\'' :: '\'' :: rest => some (['\''], rest)
  | '\'' :: '\'' :: '\'' :: rest => some ([], rest)
  | '\n' :: rest => push '\n' (literalLines rest)
  | '\r' :: '\n' :: rest => push '\n' (literalLines rest)
  | c :: rest => if isPlain c then push c (literalLines rest) else none

/-- A line break directly after the opening quotes is not part of the text. -/
def dropFirstBreak : List Char → List Char
  | '\n' :: rest => rest
  | '\r' :: '\n' :: rest => rest
  | s => s

def string? : List Char → Result
  | '"' :: '"' :: '"' :: rest => basicLines (dropFirstBreak rest)
  | '"' :: rest => basic rest
  | '\'' :: '\'' :: '\'' :: rest => literalLines (dropFirstBreak rest)
  | '\'' :: rest => literal rest
  | _ => none

end ScriptOrder.TomlString
