import ScriptOrder.Proofs.Lookup
import ScriptOrder.Scan

/-!
# The scan with its bounds checked

The same scan, but a line past the end cannot be looked up and a difference
below zero has no result. Which lines lead to a declaration is looked up in a
table, built once from the last line to the first. Wherever the bounds hold,
the checked scan gives what the scan gives.
-/

set_option autoImplicit false

namespace ScriptOrder

namespace Script

/-- For each line, whether the first reading from it on that is neither blank
nor comment is a declaration. -/
def meetTable : List Reading → List Bool
  | [] => []
  | r :: rs =>
    let table := meetTable rs
    match r with
    | .blank => table.headD false :: table
    | .comment => table.headD false :: table
    | .declaration _ => true :: table
    | .body => false :: table
    | .code => false :: table

theorem headD_meetTable (rs : List Reading) : (meetTable rs).headD false = meetsDeclaration rs := by
  induction rs with
  | nil => rfl
  | cons r rs ih =>
    cases r with
    | blank => exact ih
    | comment => exact ih
    | _ => rfl

theorem meetTable_cons (r : Reading) (rs : List Reading) :
    meetTable (r :: rs) = meetsDeclaration (r :: rs) :: meetTable rs := by
  cases r <;> simp only [meetTable, meetsDeclaration, headD_meetTable]

theorem getElem?_meetTable {rs : List Reading} {i : Nat} (hi : i < rs.length) :
    (meetTable rs)[i]? = some (meetsDeclaration (rs.drop i)) := by
  induction rs generalizing i with
  | nil => simp at hi
  | cons r rs ih =>
    rw [meetTable_cons]
    cases i with
    | zero => rfl
    | succ i =>
      rw [List.getElem?_cons_succ, List.drop_succ_cons]
      exact ih (by simpa using hi)

theorem commentsBefore_le (s : Script) (floor : Nat) {found i : Nat} (hi : i ≤ found) :
    s.commentsBefore floor found i ≤ found := by
  induction i generalizing found with
  | zero => exact Nat.le_refl found
  | succ i ih =>
    rw [commentsBefore]
    split
    · exact Nat.le_refl found
    · split
      · exact Nat.le_trans (ih (Nat.le_refl i)) (Nat.le_of_succ_le hi)
      · exact ih (Nat.le_of_succ_le hi)
      · exact Nat.le_refl found

theorem le_commentsBefore (s : Script) {floor found : Nat} (hf : floor ≤ found) (i : Nat) :
    floor ≤ s.commentsBefore floor found i := by
  induction i generalizing found with
  | zero => exact hf
  | succ i ih =>
    rw [commentsBefore]
    split
    · exact hf
    · split
      · exact ih (by omega)
      · exact ih hf
      · exact hf

theorem attachedFrom_le (s : Script) (head floor : Nat) : s.attachedFrom head floor ≤ head :=
  commentsBefore_le s floor (Nat.le_refl head)

theorem tailFrom_le (s : Script) (head : Nat) : s.tailFrom head ≤ s.length :=
  commentsBefore_le s (head + 1) (Nat.le_refl s.length)

theorem filled?_bounds {s : Script} {a b n : Nat} (h : s.filled? a b = some n) : a ≤ n ∧ n < b := by
  have hmem := List.mem_of_find?_eq_some h
  rw [List.mem_range'_1] at hmem
  omega

end Script

namespace Scan

namespace Checked

def minus (a b : Nat) : Option Nat := if b ≤ a then some (a - b) else none

def commentsBefore (s : Script) (floor found : Nat) : Nat → Option Nat
  | 0 => some found
  | i + 1 =>
    if i < floor then some found
    else do
      match ← s.readings[i]? with
      | .comment => commentsBefore s floor i i
      | .blank => commentsBefore s floor found i
      | _ => some found

def filled (s : Script) : List Nat → Option (Option Nat)
  | [] => some none
  | i :: is => do
    if (← s.readings[i]?).isBlank then filled s is else some (some i)

def withoutBlanks (s : Script) (least : Nat) : Nat → Option Nat
  | 0 => some 0
  | i + 1 =>
    if least ≤ i then do
      if (← s.readings[i]?).isBlank then withoutBlanks s least i else some (i + 1)
    else some (i + 1)

def blockTo (s : Script) (start head stop : Nat) (kind : Kind) : Option Block := do
  let above ← minus head start
  let stop ← withoutBlanks s (start + (above + 1)) stop
  some ⟨start, stop, kind⟩

def begin (s : Script) (floor head : Nat) (kind : Kind) : Option (State × Option Remark) := do
  let kind := s.rules.settle kind (← s.lines[head]?)
  let attached ← commentsBefore s floor head head
  match ← filled s (List.range' floor (attached - floor)) with
  | some stray => some (.within stray head kind, some ⟨stray, .stray head⟩)
  | none => some (.within attached head kind, none)

def leftover (s : Script) (floor : Nat) : Option Yield := do
  match ← filled s (List.range' floor (s.length - floor)) with
  | some start =>
    let stop ← withoutBlanks s (start + 1) s.length
    some ⟨some ⟨start, stop, .loose⟩, some ⟨start, .dangling⟩⟩
  | none => some nothing

def step (s : Script) (state : State) (i : Nat) : Option (State × Yield) := do
  match state, ← s.readings[i]? with
  | .searching floor, .declaration kind =>
    let (next, remark) ← begin s floor i kind
    some (next, ⟨none, remark⟩)
  | .commenting floor _, .declaration kind =>
    let (next, remark) ← begin s floor i kind
    some (next, ⟨none, remark⟩)
  | .searching floor, .comment => some (.commenting floor i, nothing)
  | .within start head kind, .declaration kind' =>
    let block ← blockTo s start head i kind
    let (next, remark) ← begin s i i kind'
    some (next, ⟨some block, remark⟩)
  | .within start head kind, .comment =>
    if ← (Script.meetTable s.readings)[i]? then
      let block ← blockTo s start head i kind
      some (.commenting i i, ⟨some block, none⟩)
    else some (.within start head kind, nothing)
  | state, _ => some (state, nothing)

def atEnd (s : Script) : State → Option (List Yield)
  | .searching floor => do some [← leftover s floor]
  | .commenting floor _ => do some [← leftover s floor]
  | .within start head kind => do
    let stop ← commentsBefore s (head + 1) s.length s.length
    let block ← blockTo s start head stop kind
    some [⟨some block, none⟩, ← leftover s stop]

def run (s : Script) (state : State) : List Nat → Option (List Yield)
  | [] => atEnd s state
  | i :: is => do
    let (next, y) ← step s state i
    some (y :: (← run s next is))

def yields (s : Script) (start : Nat) : Option (List Yield) :=
  run s (.searching start) (linesFrom s start)

end Checked

variable {s : Script} {i : Nat}

theorem reading_checked (hi : i < s.length) : s.readings[i]? = some (s.reading i) := by
  have hlt : i < s.readings.length := hi
  simp [Script.reading, hlt]

theorem line_checked (hs : s.Even) (hi : i < s.length) : s.lines[i]? = some (s.line i) := by
  have hlen : s.lines.length = s.readings.length := hs
  have hlt : i < s.lines.length := hlen ▸ hi
  simp [Script.line, hlt]

theorem commentsBefore_checked (floor found : Nat) (hi : i ≤ s.length) :
    Checked.commentsBefore s floor found i = some (s.commentsBefore floor found i) := by
  induction i generalizing found with
  | zero => rfl
  | succ i ih =>
    rw [Checked.commentsBefore, Script.commentsBefore]
    by_cases hf : i < floor
    · rw [if_pos hf, if_pos hf]
    · rw [if_neg hf, if_neg hf, reading_checked (by omega), Option.bind_eq_bind, Option.bind_some]
      cases s.reading i with
      | comment => exact ih i (by omega)
      | blank => exact ih found (by omega)
      | _ => rfl

theorem filled_checked {is : List Nat} (h : ∀ j ∈ is, j < s.length) :
    Checked.filled s is = some (is.find? fun j => !s.isBlankAt j) := by
  induction is with
  | nil => rfl
  | cons j is ih =>
    rw [List.forall_mem_cons] at h
    rw [Checked.filled, List.find?_cons, reading_checked h.1, Option.bind_eq_bind, Option.bind_some,
      Script.isBlankAt]
    cases (s.reading j).isBlank with
    | true => simpa using ih h.2
    | false => rfl

theorem filled?_checked {floor stop : Nat} (h : stop ≤ s.length) :
    Checked.filled s (List.range' floor (stop - floor)) = some (s.filled? floor stop) := by
  apply filled_checked
  intro j hj
  rw [List.mem_range'_1] at hj
  omega

theorem withoutBlanks_checked (least : Nat) (hi : i ≤ s.length) :
    Checked.withoutBlanks s least i = some (s.withoutBlanks least i) := by
  induction i with
  | zero => rfl
  | succ i ih =>
    rw [Checked.withoutBlanks, Script.withoutBlanks]
    by_cases hl : least ≤ i
    · rw [if_pos hl, reading_checked (by omega), Option.bind_eq_bind, Option.bind_some]
      cases hb : (s.reading i).isBlank with
      | true => simpa [Script.isBlankAt, hb, hl] using ih (by omega)
      | false => simp [Script.isBlankAt, hb]
    · simp [hl]

theorem blockTo_checked {start head stop : Nat} (kind : Kind) (hstart : start ≤ head)
    (hstop : stop ≤ s.length) :
    Checked.blockTo s start head stop kind = some (blockTo s start head stop kind) := by
  have hleast : start + (head - start + 1) = head + 1 := by omega
  simp [Checked.blockTo, Checked.minus, hstart, hleast, withoutBlanks_checked _ hstop, blockTo]

theorem begin_checked (hs : s.Even) (floor : Nat) {head : Nat} (kind : Kind) (h : head < s.length) :
    Checked.begin s floor head kind = some (begin s floor head kind) := by
  have hattached := Script.attachedFrom_le s head floor
  have hcomments : Checked.commentsBefore s floor head head = some (s.attachedFrom head floor) :=
    commentsBefore_checked floor head (by omega)
  have hfilled : Checked.filled s (List.range' floor (s.attachedFrom head floor - floor)) =
      some (s.filled? floor (s.attachedFrom head floor)) := filled?_checked (by omega)
  simp only [Checked.begin, line_checked hs h, hcomments, hfilled, Option.bind_eq_bind,
    Option.bind_some, begin]
  cases s.filled? floor (s.attachedFrom head floor) <;> rfl

theorem leftover_checked (s : Script) (floor : Nat) :
    Checked.leftover s floor = some (leftover s floor) := by
  have hfilled : Checked.filled s (List.range' floor (s.length - floor)) =
      some (s.filled? floor s.length) := filled?_checked (Nat.le_refl _)
  simp only [Checked.leftover, hfilled, Option.bind_eq_bind, Option.bind_some, leftover]
  cases s.filled? floor s.length with
  | none => rfl
  | some start => simp [withoutBlanks_checked (start + 1) (Nat.le_refl s.length)]

def State.Headed : State → Prop
  | .within start head _ => start ≤ head
  | _ => True

theorem step_checked (hs : s.Even) {state : State} (hw : state.Headed) (hi : i < s.length) :
    Checked.step s state i = some (step s state i) := by
  have htable : (Script.meetTable s.readings)[i]? = some (s.meetsDeclarationAt i) :=
    Script.getElem?_meetTable hi
  have hbegin (floor : Nat) (kind : Kind) := begin_checked hs floor kind hi
  simp only [Checked.step, reading_checked hi, Option.bind_eq_bind, Option.bind_some]
  cases state with
  | searching floor => cases hr : s.reading i <;> simp [step, hr, hbegin]
  | commenting floor first => cases hr : s.reading i <;> simp [step, hr, hbegin]
  | within start head kind =>
    have hblock := blockTo_checked kind hw (Nat.le_of_lt hi)
    cases hr : s.reading i with
    | declaration kind' => simp [step, hr, hblock, hbegin]
    | comment => cases hm : s.meetsDeclarationAt i <;> simp [step, hr, htable, hm, hblock]
    | _ => simp [step, hr]

theorem atEnd_checked {state : State} (hw : state.Headed) :
    Checked.atEnd s state = some (atEnd s state) := by
  cases state with
  | searching floor => simp [Checked.atEnd, leftover_checked, atEnd]
  | commenting floor first => simp [Checked.atEnd, leftover_checked, atEnd]
  | within start head kind =>
    have htail : Checked.commentsBefore s (head + 1) s.length s.length = some (s.tailFrom head) :=
      commentsBefore_checked (head + 1) s.length (Nat.le_refl _)
    have hblock := blockTo_checked kind hw (Script.tailFrom_le s head)
    simp only [Checked.atEnd, htail, hblock, leftover_checked, Option.bind_eq_bind, Option.bind_some,
      atEnd]

/-- A block that begins past its head breaks the bounds. -/
example : Checked.atEnd ⟨[[], []], [.body, .blank], ⟨[], []⟩⟩ (.within 1 0 .callback) = none := rfl

end Scan

end ScriptOrder
