import ScriptOrder.Pattern

/-!
# Written patterns

A written pattern is cut into tokens, and the tokens are put together with a
stack of open groups. A group that is not closed or not opened, a class that
is not closed or runs backwards, a repetition with nothing before it and a
lone backslash at the end are refused.
-/

set_option autoImplicit false

namespace ScriptOrder.PatternReader

inductive Token where
  | openGroup
  | closeGroup
  | bar
  | star
  | plus
  | mark
  | count (n : Nat)
  | atom (p : Pattern)
deriving Repr

def namedClass? : Char → Option CharTest
  | 's' => some (.space true)
  | 'S' => some (.space false)
  | 'w' => some (.word true)
  | 'W' => some (.word false)
  | 'd' => some (.decimal true)
  | 'D' => some (.decimal false)
  | _ => none

def isEscapable (c : Char) : Bool :=
  c.toNat < 0x7F && 0x20 < c.toNat && !c.isAlphanum && c != '<' && c != '>'

def classItem? : List Char → Option (CharTest × List Char)
  | [] => none
  | ['\\'] => none
  | '\\' :: c :: rest =>
    match namedClass? c with
    | some t => some (t, rest)
    | none => if isEscapable c then some (.range c c, rest) else none
  | c :: rest => some (.range c c, rest)

theorem classItem?_length {s rest : List Char} {t : CharTest}
    (h : classItem? s = some (t, rest)) : rest.length < s.length := by
  unfold classItem? at h
  split at h
  · simp at h
  · simp at h
  · split at h
    · simp only [Option.some.injEq, Prod.mk.injEq] at h
      rw [← h.2, List.length_cons, List.length_cons]
      omega
    · split at h
      · simp only [Option.some.injEq, Prod.mk.injEq] at h
        rw [← h.2, List.length_cons, List.length_cons]
        omega
      · simp at h
  · simp only [Option.some.injEq, Prod.mk.injEq] at h
    rw [← h.2, List.length_cons]
    omega

def range? : CharTest → CharTest → Option CharTest
  | .range lo _, .range hi _ => if lo ≤ hi then some (.range lo hi) else none
  | _, _ => none

/-- The members up to the closing bracket. A hyphen before the bracket is
literal; two hyphens, ampersands or tildes in a row are refused. -/
def classItems? : List Char → Option (List CharTest × List Char)
  | [] => none
  | ']' :: rest => some ([], rest)
  | '[' :: _ => none
  | '-' :: '-' :: _ => none
  | '&' :: '&' :: _ => none
  | '~' :: '~' :: _ => none
  | c :: cs =>
    match _h : classItem? (c :: cs) with
    | none => none
    | some (t, '-' :: ']' :: rest) => some ([t, .range '-' '-'], rest)
    | some (t, '-' :: rest) =>
      match _h' : classItem? rest with
      | none => none
      | some (u, last) =>
        match range? t u with
        | none => none
        | some r => (classItems? last).map fun (ts, others) => (r :: ts, others)
    | some (t, rest) => (classItems? rest).map fun (ts, others) => (t :: ts, others)
termination_by s => s.length
decreasing_by
  · have h1 := classItem?_length _h
    have h2 := classItem?_length _h'
    simp only [List.length_cons] at *
    omega
  · exact classItem?_length _h

theorem classItems?_length {s rest : List Char} {ts : List CharTest}
    (h : classItems? s = some (ts, rest)) : rest.length < s.length := by
  fun_induction classItems? s generalizing ts rest with
  | case1 => simp at h
  | case2 last =>
    simp only [Option.some.injEq, Prod.mk.injEq] at h
    rw [← h.2, List.length_cons]
    omega
  | case3 => simp at h
  | case4 => simp at h
  | case5 => simp at h
  | case6 => simp at h
  | case7 => simp at h
  | case8 c cs _ _ _ _ _ t last hitem =>
    have hl := classItem?_length hitem
    simp only [Option.some.injEq, Prod.mk.injEq] at h
    rw [List.length_cons, List.length_cons] at hl
    rw [← h.2]
    omega
  | case9 => simp at h
  | case10 => simp at h
  | case11 c cs _ _ _ _ _ t mid _ hitem u last hitem' r _ ih =>
    obtain ⟨⟨us, stop⟩, hu, he⟩ := Option.map_eq_some_iff.1 h
    simp only [Prod.mk.injEq] at he
    have h1 := classItem?_length hitem
    have h2 := classItem?_length hitem'
    have h3 := ih hu
    simp only [List.length_cons] at *
    rw [← he.2]
    omega
  | case12 c cs _ _ _ _ _ t mid _ _ hitem ih =>
    obtain ⟨⟨us, stop⟩, hu, he⟩ := Option.map_eq_some_iff.1 h
    simp only [Prod.mk.injEq] at he
    have h1 := classItem?_length hitem
    have h2 := ih hu
    rw [← he.2]
    omega

/-- Hyphens at the start of a class are literal. -/
def hyphens? : List Char → Option (List CharTest × List Char)
  | '-' :: rest => (hyphens? rest).map fun (ts, others) => (.range '-' '-' :: ts, others)
  | s => classItems? s

theorem hyphens?_length {s rest : List Char} {ts : List CharTest}
    (h : hyphens? s = some (ts, rest)) : rest.length < s.length := by
  fun_induction hyphens? s generalizing ts rest with
  | case1 mid ih =>
    obtain ⟨⟨us, stop⟩, hu, he⟩ := Option.map_eq_some_iff.1 h
    simp only [Prod.mk.injEq] at he
    have := ih hu
    rw [← he.2, List.length_cons]
    omega
  | case2 s _ => exact classItems?_length h

/-- A bracket that would close an empty class is literal. -/
def classBody? : List Char → Option (List CharTest × List Char)
  | ']' :: rest => (classItems? rest).map fun (ts, others) => (.range ']' ']' :: ts, others)
  | s => hyphens? s

theorem classBody?_length {s rest : List Char} {ts : List CharTest}
    (h : classBody? s = some (ts, rest)) : rest.length < s.length := by
  unfold classBody? at h
  split at h
  · obtain ⟨⟨us, stop⟩, hu, he⟩ := Option.map_eq_some_iff.1 h
    simp only [Prod.mk.injEq] at he
    have := classItems?_length hu
    rw [← he.2, List.length_cons]
    omega
  · exact hyphens?_length h

def class? : List Char → Option (Pattern × List Char)
  | '^' :: s => (classBody? s).map fun (ts, rest) => (.noneOf ts, rest)
  | s => (classBody? s).map fun (ts, rest) => (.oneOf ts, rest)

theorem class?_length {s rest : List Char} {p : Pattern}
    (h : class? s = some (p, rest)) : rest.length < s.length := by
  unfold class? at h
  split at h <;>
  · obtain ⟨⟨us, stop⟩, hu, he⟩ := Option.map_eq_some_iff.1 h
    simp only [Prod.mk.injEq] at he
    have := classBody?_length hu
    simp only [← he.2, List.length_cons]
    omega

def count? (s : List Char) : Option (Nat × List Char) :=
  match s.takeWhile Char.isDigit, s.dropWhile Char.isDigit with
  | [], _ => none
  | digits, '}' :: rest =>
    some (digits.foldl (fun n d => 10 * n + (d.toNat - '0'.toNat)) 0, rest)
  | _, _ => none

theorem count?_length {s rest : List Char} {n : Nat}
    (h : count? s = some (n, rest)) : rest.length < s.length := by
  have hl : (s.dropWhile Char.isDigit).length ≤ s.length :=
    (List.dropWhile_suffix _).length_le
  unfold count? at h
  split at h
  · simp at h
  · rename_i hd _
    simp only [Option.some.injEq, Prod.mk.injEq] at h
    rw [hd, h.2, List.length_cons] at hl
    omega
  · simp at h

def escaped? (c : Char) : Option Pattern :=
  match c with
  | 'b' => some (.wordEdge true)
  | 'B' => some (.wordEdge false)
  | c =>
    match namedClass? c with
    | some t => some (.oneOf [t])
    | none => if isEscapable c then some (.char c) else none

def tokens? : List Char → Option (List Token)
  | [] => some []
  | '(' :: '?' :: ':' :: rest => (tokens? rest).map (.openGroup :: ·)
  | '(' :: '?' :: _ => none
  | '(' :: rest => (tokens? rest).map (.openGroup :: ·)
  | ')' :: rest => (tokens? rest).map (.closeGroup :: ·)
  | '|' :: rest => (tokens? rest).map (.bar :: ·)
  | '*' :: rest => (tokens? rest).map (.star :: ·)
  | '+' :: rest => (tokens? rest).map (.plus :: ·)
  | '?' :: rest => (tokens? rest).map (.mark :: ·)
  | '^' :: rest => (tokens? rest).map (.atom .lineStart :: ·)
  | '$' :: rest => (tokens? rest).map (.atom .lineEnd :: ·)
  | '.' :: rest => (tokens? rest).map (.atom (.noneOf [.range '\n' '\n']) :: ·)
  | '{' :: s =>
    match _h : count? s with
    | some (n, rest) => (tokens? rest).map (.count n :: ·)
    | none => none
  | '[' :: s =>
    match _h : class? s with
    | some (p, rest) => (tokens? rest).map (.atom p :: ·)
    | none => none
  | ['\\'] => none
  | '\\' :: c :: rest =>
    match escaped? c with
    | some p => (tokens? rest).map (.atom p :: ·)
    | none => none
  | c :: rest => (tokens? rest).map (.atom (.char c) :: ·)
termination_by s => s.length
decreasing_by
  all_goals simp only [List.length_cons]
  all_goals first
    | omega
    | exact Nat.lt_succ_of_lt (count?_length _h)
    | exact Nat.lt_succ_of_lt (class?_length _h)

/-- The finished choices of an open group and the parts of the choice being
read, both with the last one first. -/
structure Group where
  choices : List Pattern
  parts : List Pattern

def Group.new : Group := ⟨[], []⟩

def Group.pattern (g : Group) : Pattern :=
  .any (Pattern.all g.parts.reverse :: g.choices).reverse

def Group.push (g : Group) (p : Pattern) : Group := { g with parts := p :: g.parts }

/-- Puts tokens together. A question mark directly after a repetition only
asks for the shorter match, which changes nothing about there being one. -/
def assemble? (repeated : Bool) (g : Group) (outer : List Group) :
    List Token → Option Pattern
  | [] => if outer.isEmpty then some g.pattern else none
  | .openGroup :: ts => assemble? false .new (g :: outer) ts
  | .closeGroup :: ts =>
    match outer with
    | [] => none
    | o :: outer => assemble? false (o.push g.pattern) outer ts
  | .bar :: ts =>
    assemble? false ⟨Pattern.all g.parts.reverse :: g.choices, []⟩ outer ts
  | .atom p :: ts => assemble? false (g.push p) outer ts
  | .mark :: ts =>
    if repeated then assemble? false g outer ts
    else match g.parts with
      | [] => none
      | p :: ps => assemble? true ⟨g.choices, p.optional :: ps⟩ outer ts
  | .star :: ts =>
    match g.parts with
    | [] => none
    | p :: ps => assemble? true ⟨g.choices, .many p :: ps⟩ outer ts
  | .plus :: ts =>
    match g.parts with
    | [] => none
    | p :: ps => assemble? true ⟨g.choices, p.oneOrMore :: ps⟩ outer ts
  | .count n :: ts =>
    match g.parts with
    | [] => none
    | p :: ps => assemble? true ⟨g.choices, p.times n :: ps⟩ outer ts

def read? (s : List Char) : Option Pattern :=
  (tokens? s).bind (assemble? false .new [])

end ScriptOrder.PatternReader
