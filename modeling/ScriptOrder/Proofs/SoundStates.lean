import ScriptOrder.Proofs.CheckedScan
import ScriptOrder.Proofs.Ownership

/-!
# The states a scan can reach

What a state says of the lines already read. Comments wait for one of two
reasons: no declaration has come yet, or they end a block and lead to the next
declaration. Each step keeps this, so it holds of every state that a scan
reaches, and in such a state no bound of the scan is broken.
-/

set_option autoImplicit false

namespace ScriptOrder

namespace Script

variable {s : Script} {i : Nat}

theorem Declares.lt_length (h : s.Declares i) : i < s.length := by
  obtain ⟨kind, hr⟩ := h
  by_contra hi
  rw [reading_of_le (Nat.le_of_not_lt hi)] at hr
  cases hr

theorem drop_readings {r : Reading} {rs : List Reading} (h : s.readings.drop i = r :: rs) :
    s.reading i = r ∧ s.readings.drop (i + 1) = rs := by
  have hget : s.readings[i]? = some r := by
    rw [← List.head?_drop, h]
    rfl
  exact ⟨by simp [reading, hget], by rw [← List.drop_drop, h]; rfl⟩

theorem leadsTo_note {d : Nat} (h : s.reading (i + 1) = .comment ∨ s.reading (i + 1) = .blank) :
    s.LeadsTo i d ↔ s.LeadsTo (i + 1) d := by
  constructor
  · intro hd
    have hne : d ≠ i + 1 := by
      rintro rfl
      exact hd.2.1.unnoted h
    exact ⟨Nat.lt_of_le_of_ne hd.1 hne.symm, hd.2.1, fun j hj => hd.2.2 j (by omega)⟩
  · intro hd
    refine ⟨Nat.lt_of_succ_lt hd.1, hd.2.1, fun j hj hjd => ?_⟩
    rcases Nat.eq_or_lt_of_le hj with rfl | hlt
    · exact h
    · exact hd.2.2 j hlt hjd

theorem not_leadsTo {d : Nat} (hsolid : (s.reading (i + 1)).isSolid = true)
    (h : ¬ s.Declares (i + 1)) : ¬ s.LeadsTo i d := by
  intro hd
  have hle := hd.le_of_solid (Nat.lt_succ_self i) hsolid
  obtain rfl : d = i + 1 := Nat.le_antisymm hle hd.1
  exact h hd.2.1

theorem meetsDeclarationAt_succ (s : Script) (i : Nat) :
    s.meetsDeclarationAt (i + 1) = true ↔ ∃ d, s.LeadsTo i d := by
  rw [meetsDeclarationAt]
  induction hrs : s.readings.drop (i + 1) generalizing i with
  | nil =>
    have hlen : s.length ≤ i + 1 := List.drop_eq_nil_iff.mp hrs
    have hnone (d : Nat) : ¬ s.LeadsTo i d := by
      intro hd
      have hlt := hd.2.1.lt_length
      have hid := hd.1
      omega
    simp [meetsDeclaration, hnone]
  | cons r rs ih =>
    obtain ⟨hr, hdrop⟩ := drop_readings hrs
    cases r with
    | blank => simpa only [meetsDeclaration, leadsTo_note (Or.inr hr)] using ih (i + 1) hdrop
    | comment => simpa only [meetsDeclaration, leadsTo_note (Or.inl hr)] using ih (i + 1) hdrop
    | declaration kind =>
      have hnext : s.LeadsTo i (i + 1) := ⟨Nat.lt_succ_self i, ⟨kind, hr⟩, fun j hj hjd => by omega⟩
      exact ⟨fun _ => ⟨i + 1, hnext⟩, fun _ => rfl⟩
    | _ =>
      have hnone (d : Nat) : ¬ s.LeadsTo i d := not_leadsTo (by rw [hr]; rfl) (by simp [Declares, hr])
      simp [meetsDeclaration, hnone]

theorem meetsDeclarationAt_comment (hc : s.reading i = .comment) :
    s.meetsDeclarationAt i = true ↔ ∃ d, s.LeadsTo i d := by
  rw [← meetsDeclarationAt_succ, meetsDeclarationAt, meetsDeclarationAt]
  cases hrs : s.readings.drop i with
  | nil =>
    rw [reading_of_le (List.drop_eq_nil_iff.mp hrs)] at hc
    cases hc
  | cons r rs =>
    obtain ⟨hr, hdrop⟩ := drop_readings hrs
    obtain rfl : r = .comment := hr.symm.trans hc
    rw [hdrop, meetsDeclaration]

end Script

namespace Scan
open Script

/-- The states before line `i` of a scan that begins at line `start`. -/
inductive Reaches (s : Script) (start : Nat) : Nat → State → Prop
  | begin : Reaches s start start (.searching start)
  | step {i : Nat} {state : State} : Reaches s start i state → i < s.length →
      Reaches s start (i + 1) (step s state i).1

structure Searching (s : Script) (start floor i : Nat) : Prop where
  floor_eq : floor = start
  quiet : ∀ j, start ≤ j → j < i → s.reading j ≠ .comment ∧ ¬ s.Declares j

/-- Why comments since line `first` wait before line `i`. -/
inductive Awaits (s : Script) (start floor first i : Nat) : Prop
  | ahead : floor = start → (∀ j, start ≤ j → j < i → ¬ s.Declares j) → Awaits s start floor first i
  /-- Nothing but comments and blank lines has come since, and line `d`, the
  first other line, is a declaration. -/
  | leading (d : Nat) : floor = first →
      (∀ j, first ≤ j → j < i → s.reading j = .comment ∨ s.reading j = .blank) →
      i ≤ d → s.LeadsTo first d → Awaits s start floor first i

structure Commenting (s : Script) (start floor first i : Nat) : Prop where
  start_le : start ≤ floor
  floor_le : floor ≤ first
  first_lt : first < i
  comment : s.reading first = .comment
  undeclared : ∀ j, floor ≤ j → j < i → ¬ s.Declares j
  awaits : Awaits s start floor first i

structure Heading (s : Script) (start first head : Nat) (kind : Kind) (i : Nat) : Prop where
  start_le : start ≤ first
  first_le : first ≤ head
  head_lt : head < i
  headed : ∃ k, s.reading head = .declaration k ∧ s.rules.settle k (s.line head) = kind
  quiet : ∀ j, head < j → j < i →
    ¬ s.Declares j ∧ (s.reading j = .comment → ∀ d, ¬ s.LeadsTo j d)

/-- What a state says of the lines from `start` to before `i`. -/
def Sound (s : Script) (start i : Nat) : State → Prop
  | .searching floor => Searching s start floor i
  | .commenting floor first => Commenting s start floor first i
  | .within first head kind => Heading s start first head kind i

variable {s : Script} {start i : Nat} {state : State}

theorem Sound.headed (h : Sound s start i state) : state.Headed := by
  cases state with
  | searching floor => trivial
  | commenting floor first => trivial
  | within first head kind => exact h.first_le

theorem Reaches.start_le (h : Reaches s start i state) : start ≤ i := by
  induction h with
  | begin => exact Nat.le_refl start
  | step _ _ ih => exact Nat.le_succ_of_le ih

theorem forall_through {P : Nat → Prop} {a : Nat} (h : ∀ j, a ≤ j → j < i → P j) (hi : P i) :
    ∀ j, a ≤ j → j < i + 1 → P j := by
  intro j ha hj
  rcases Nat.lt_succ_iff_lt_or_eq.mp hj with hlt | rfl
  · exact h j ha hlt
  · exact hi

theorem begin_eq (s : Script) {floor head : Nat} (hf : floor ≤ head) (kind : Kind) :
    ∃ first remark, floor ≤ first ∧ first ≤ head ∧ begin s floor head kind =
      (.within first head (s.rules.settle kind (s.line head)), remark) := by
  have hle := s.attachedFrom_le head floor
  rw [begin]
  cases hstray : s.filled? floor (s.attachedFrom head floor) with
  | some stray =>
    have hbounds := filled?_bounds hstray
    exact ⟨stray, _, hbounds.1, by omega, rfl⟩
  | none => exact ⟨s.attachedFrom head floor, _, s.le_commentsBefore hf head, hle, rfl⟩

theorem sound_begin {floor : Nat} {kind : Kind} (hstart : start ≤ floor) (hf : floor ≤ i)
    (hr : s.reading i = .declaration kind) :
    Sound s start (i + 1) (begin s floor i kind).1 := by
  obtain ⟨first, remark, hfirst, hhead, heq⟩ := begin_eq s hf kind
  rw [heq]
  exact ⟨Nat.le_trans hstart hfirst, hhead, Nat.lt_succ_self i, ⟨kind, hr, rfl⟩,
    fun j hj hji => by omega⟩

theorem Searching.next {floor : Nat} (h : Searching s start floor i) (hi : start ≤ i) :
    Sound s start (i + 1) (step s (.searching floor) i).1 := by
  obtain ⟨rfl, hquiet⟩ := h
  have hundeclared (j : Nat) (hj : floor ≤ j) (hji : j < i) : ¬ s.Declares j := (hquiet j hj hji).2
  have hextend (hc : s.reading i ≠ .comment) (hd : ¬ s.Declares i) :
      Sound s floor (i + 1) (.searching floor) :=
    ⟨rfl, forall_through hquiet ⟨hc, hd⟩⟩
  cases hr : s.reading i with
  | declaration kind =>
    simp only [step, hr]
    exact sound_begin (Nat.le_refl floor) hi hr
  | comment =>
    have hthrough := forall_through hundeclared (by simp [Declares, hr])
    simp only [step, hr]
    exact ⟨Nat.le_refl floor, hi, Nat.lt_succ_self i, hr, hthrough, .ahead rfl hthrough⟩
  | _ => simpa [step, hr] using hextend (by simp [hr]) (by simp [Declares, hr])

theorem Awaits.next {floor first : Nat} (h : Awaits s start floor first i) (hi : first < i)
    (hd : ¬ s.Declares i) : Awaits s start floor first (i + 1) := by
  cases h with
  | ahead hfloor hnone => exact .ahead hfloor (forall_through hnone hd)
  | leading d hfloor hnotes hle hleads =>
    have hne : i ≠ d := by
      rintro rfl
      exact hd hleads.2.1
    have hlt : i < d := Nat.lt_of_le_of_ne hle hne
    exact .leading d hfloor (forall_through hnotes (hleads.2.2 i hi hlt)) hlt hleads

theorem Commenting.next {floor first : Nat} (h : Commenting s start floor first i) :
    Sound s start (i + 1) (step s (.commenting floor first) i).1 := by
  obtain ⟨hstart, hfloor, hlt, hc, hnone, hway⟩ := h
  have hextend (hd : ¬ s.Declares i) : Sound s start (i + 1) (.commenting floor first) :=
    ⟨hstart, hfloor, Nat.lt_succ_of_lt hlt, hc, forall_through hnone hd, hway.next hlt hd⟩
  cases hr : s.reading i with
  | declaration kind =>
    simp only [step, hr]
    exact sound_begin hstart (by omega) hr
  | _ => simpa [step, hr] using hextend (by simp [Declares, hr])

theorem Heading.next {first head : Nat} {kind : Kind} (h : Heading s start first head kind i) :
    Sound s start (i + 1) (step s (.within first head kind) i).1 := by
  obtain ⟨hstart, hfirst, hlt, hhead, hquiet⟩ := h
  have hextend (hd : ¬ s.Declares i) (hc : s.reading i = .comment → ∀ d, ¬ s.LeadsTo i d) :
      Sound s start (i + 1) (.within first head kind) :=
    ⟨hstart, hfirst, Nat.lt_succ_of_lt hlt, hhead, forall_through hquiet ⟨hd, hc⟩⟩
  cases hr : s.reading i with
  | declaration kind' =>
    simp only [step, hr]
    exact sound_begin (by omega) (Nat.le_refl i) hr
  | comment =>
    have hd : ¬ s.Declares i := by simp [Declares, hr]
    by_cases hm : s.meetsDeclarationAt i = true
    · obtain ⟨d, hleads⟩ := (meetsDeclarationAt_comment hr).mp hm
      have hone (j : Nat) (hj : i ≤ j) (hji : j < i + 1) : j = i := by omega
      simp only [step, hr, hm, if_true]
      exact ⟨by omega, Nat.le_refl i, Nat.lt_succ_self i, hr,
        fun j hj hji => hone j hj hji ▸ hd,
        .leading d rfl (fun j hj hji => Or.inl (hone j hj hji ▸ hr)) hleads.1 hleads⟩
    · have hnone : ¬ ∃ d, s.LeadsTo i d := (meetsDeclarationAt_comment hr).not.mp hm
      simpa [step, hr, hm] using hextend hd fun _ => not_exists.mp hnone
  | _ => simpa [step, hr] using hextend (by simp [Declares, hr]) (by simp [hr])

theorem Sound.next (h : Sound s start i state) (hi : start ≤ i) :
    Sound s start (i + 1) (step s state i).1 := by
  cases state with
  | searching floor => exact Searching.next h hi
  | commenting floor first => exact Commenting.next h
  | within first head kind => exact Heading.next h

theorem Reaches.sound (h : Reaches s start i state) : Sound s start i state := by
  induction h with
  | begin => exact ⟨rfl, fun j hj hji => by omega⟩
  | step hreach _ ih => exact ih.next hreach.start_le

theorem Reaches.after (h : Reaches s start i state) {n : Nat} (hn : i + n ≤ s.length) :
    Reaches s start (i + n) (after s state (List.range' i n)) := by
  induction n generalizing i state with
  | zero => exact h
  | succ n ih =>
    have hnext := ih (.step h (by omega)) (by omega)
    rw [List.range'_succ, Scan.after]
    simpa only [Nat.add_assoc, Nat.add_comm 1 n] using hnext

theorem reaches_end (s : Script) (start : Nat) :
    Reaches s start (max start s.length) (after s (.searching start) (linesFrom s start)) := by
  by_cases hstart : start ≤ s.length
  · have hend := Reaches.begin.after (s := s) (i := start) (n := s.length - start) (by omega)
    rw [show max start s.length = start + (s.length - start) by omega]
    exact hend
  · rw [linesFrom_nil (by omega), Nat.max_eq_left (by omega)]
    exact .begin

theorem Commenting.undeclared_at_end {floor first : Nat} (h : Commenting s start floor first i)
    (hi : s.length ≤ i) : ∀ j, start ≤ j → ¬ s.Declares j := by
  intro j hj hdecl
  have hlt := hdecl.lt_length
  cases h.awaits with
  | ahead _ hnone => exact hnone j hj (by omega) hdecl
  | leading d _ _ hle hleads =>
    have hd := hleads.2.1.lt_length
    omega

theorem run_checked (hs : s.Even) (h : Reaches s start i state) :
    Checked.run s state (linesFrom s i) =
      some ((trace s state (linesFrom s i)).map Prod.snd ++ atEnd s (after s state (linesFrom s i))) := by
  induction hn : s.length - i generalizing i state with
  | zero =>
    rw [linesFrom_nil (by omega)]
    exact atEnd_checked h.sound.headed
  | succ n ih =>
    have hi : i < s.length := by omega
    have hrest := ih (.step h hi) (by omega)
    rw [linesFrom_cons hi, Checked.run, step_checked hs h.sound.headed hi]
    simp only [Option.bind_eq_bind, Option.bind_some, hrest]
    rfl

/-- No look-up of a scan is out of range and no difference is below zero. -/
theorem yields_checked (hs : s.Even) (start : Nat) :
    Checked.yields s start = some (yields s start) := run_checked hs .begin

/-- What a state says of the lines before it is true in every state a scan
reaches. In such a state the next step and the end keep all bounds, and a
scan that stops while comments wait has passed no declaration. -/
theorem reached_states_sound (hs : s.Even) (h : Reaches s start i state) :
    Sound s start i state ∧
      (i < s.length → Checked.step s state i = some (step s state i)) ∧
      (s.length ≤ i → Checked.atEnd s state = some (atEnd s state) ∧
        ∀ floor first, state = .commenting floor first → ∀ j, start ≤ j → ¬ s.Declares j) := by
  have hsound := h.sound
  refine ⟨hsound, step_checked hs hsound.headed, fun hi => ⟨atEnd_checked hsound.headed, ?_⟩⟩
  rintro floor first rfl
  exact Commenting.undeclared_at_end hsound hi

theorem annotated_reached : annotated.Even ∧ Reaches annotated 0 4 (.commenting 3 3) ∧
    Sound annotated 0 4 (.commenting 3 3) ∧
    Checked.step annotated (.commenting 3 3) 4 = some (.commenting 3 3, nothing) := by
  have heven : annotated.Even := ofLines_even .default _
  have hstate : after annotated (.searching 0) (List.range' 0 4) = .commenting 3 3 := by decide
  have hreach : Reaches annotated 0 4 (.commenting 3 3) := by
    rw [← hstate]
    exact Reaches.begin.after (s := annotated) (i := 0) (n := 4) (by decide)
  obtain ⟨hsound, hstep, -⟩ := reached_states_sound heven hreach
  exact ⟨heven, hreach, hsound, (hstep (by decide)).trans (by decide)⟩

end Scan

end ScriptOrder
