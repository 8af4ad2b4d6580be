import Mathlib.Data.List.Basic
import ScriptOrder.Proofs.SameReading

/-!
# The string that is open at the end

The remark on an unterminated string names the last line before which no string is
open. Of the lines only the states between them are known to it, so a line that
closes one string and opens another passes for one in the middle of a string. Where
no such line follows, the line named is the one that opened the string.
-/

set_option autoImplicit false

namespace ScriptOrder
open Reading

namespace Script

def EndsOpen (s : Script) : Prop := s.enclosure s.lines.length ≠ .outside

instance (s : Script) : Decidable s.EndsOpen := inferInstanceAs (Decidable (_ ≠ _))

/-- Before line `n` no string is open, but before every later line and at the end
one is. -/
def OpenSince (s : Script) (n : Nat) : Prop := n < s.lines.length ∧ s.enclosure n = .outside ∧
  ∀ j, n < j → j ≤ s.lines.length → s.enclosure j ≠ .outside

def openAt (s : Script) (i k : Nat) : Bool :=
  Quotes.leavesOpen (s.enclosure i).isOpen ((s.line i).take k)

/-- The string that is open at the end was opened in line `n`: somewhere in the line
no string is open, and in the later lines one is open throughout. -/
def OpenedIn (s : Script) (n : Nat) : Prop := n < s.lines.length ∧ s.EndsOpen ∧
  (∃ k, s.openAt n k = false) ∧
  ∀ j, n < j → j < s.lines.length → ∀ k, s.openAt j k = true

/-- Line `j` closes the string that is open before it and leaves another one open. -/
def Reopens (s : Script) (j : Nat) : Prop := s.enclosure j ≠ .outside ∧
  s.enclosure (j + 1) ≠ .outside ∧ ∃ k, s.openAt j k = false

end Script

namespace Reading

theorem openerIn_some {e : Enclosure} {opener n k : Nat} {ls : List Line}
    (h : openerIn e opener n ls = some k) :
    (k = opener ∧ ∀ i ≤ ls.length, e.afterAll (ls.take i) ≠ .outside) ∨
    ∃ j, j < ls.length ∧ k = n + j ∧ e.afterAll (ls.take j) = .outside ∧
      ∀ i, j < i → i ≤ ls.length → e.afterAll (ls.take i) ≠ .outside := by
  induction ls generalizing e opener n with
  | nil =>
    rw [openerIn] at h
    split at h
    · rename_i hopen
      have he : e ≠ .outside := by simpa [Enclosure.isOpen] using hopen
      exact Or.inl ⟨(Option.some.inj h).symm, fun i _ => by simpa [Enclosure.afterAll] using he⟩
    · simp at h
  | cons l ls ih =>
    have hlater {i : Nat} : e.afterAll ((l :: ls).take (i + 1)) = (e.after l).afterAll (ls.take i) :=
      rfl
    rw [openerIn] at h
    rcases ih h with ⟨hk, hall⟩ | ⟨j, hj, hk, hclosed, hall⟩
    · by_cases he : e = .outside
      · subst he
        refine Or.inr ⟨0, Nat.zero_lt_succ _, hk, rfl, fun i hi hle => ?_⟩
        obtain ⟨i, rfl⟩ := Nat.exists_eq_succ_of_ne_zero (Nat.ne_of_gt hi)
        exact hall i (Nat.le_of_succ_le_succ hle)
      · refine Or.inl ⟨by simpa [Enclosure.isOpen, he] using hk, fun i hle => ?_⟩
        cases i with
        | zero => exact he
        | succ i => exact hall i (Nat.le_of_succ_le_succ hle)
    · refine Or.inr ⟨j + 1, Nat.succ_lt_succ hj, by omega, hlater.trans hclosed, fun i hi hle => ?_⟩
      obtain ⟨i, rfl⟩ := Nat.exists_eq_succ_of_ne_zero (Nat.ne_zero_of_lt hi)
      exact hall i (Nat.lt_of_succ_lt_succ hi) (Nat.le_of_succ_le_succ hle)

end Reading

namespace Script

variable {s : Script} {m n : Nat}

theorem OpenSince.unique (hm : s.OpenSince m) (hn : s.OpenSince n) : m = n := by
  rcases Nat.lt_trichotomy m n with h | h | h
  · exact absurd hn.2.1 (hm.2.2 n h (Nat.le_of_lt hn.1))
  · exact h
  · exact absurd hm.2.1 (hn.2.2 m h (Nat.le_of_lt hm.1))

theorem OpenSince.endsOpen (h : s.OpenSince n) : s.EndsOpen :=
  h.2.2 _ h.1 (Nat.le_refl _)

theorem openSince_of_opener (h : openerIn .outside 0 0 s.lines = some n) : s.OpenSince n := by
  rcases openerIn_some h with ⟨-, hall⟩ | ⟨j, hj, hk, hclosed, hall⟩
  · exact absurd rfl (hall 0 (Nat.zero_le _))
  · rw [Nat.zero_add] at hk
    subst hk
    exact ⟨hj, hclosed, hall⟩

theorem exists_openSince (h : s.EndsOpen) :
    ∃ n, openerIn .outside 0 0 s.lines = some n ∧ s.OpenSince n := by
  rw [EndsOpen, enclosure, List.take_length] at h
  obtain ⟨n, hn⟩ := Option.ne_none_iff_exists'.mp (mt (openerIn_eq_none .outside 0 0 s.lines).mp h)
  exact ⟨n, hn, openSince_of_opener hn⟩

theorem exists_openSince_iff : (∃ n, s.OpenSince n) ↔ s.EndsOpen := by
  constructor
  · rintro ⟨n, hn⟩
    exact hn.endsOpen
  · intro h
    obtain ⟨n, -, hn⟩ := exists_openSince h
    exact ⟨n, hn⟩

theorem remarks_lines (s : Script) : Reading.remarks s.lines = [] ∧ ¬ s.EndsOpen ∨
    ∃ n, Reading.remarks s.lines = [⟨n, .unterminated⟩] ∧ s.OpenSince n := by
  by_cases h : s.EndsOpen
  · obtain ⟨n, hopener, hn⟩ := exists_openSince h
    exact Or.inr ⟨n, by rw [Reading.remarks, hopener], hn⟩
  · refine Or.inl ⟨?_, h⟩
    rw [Reading.remarks_eq_nil]
    rwa [EndsOpen, enclosure, List.take_length, not_not] at h

/-- The line before which no string was open opened the last one, if no later line
has closed that string and opened another. -/
theorem OpenSince.openedIn_iff (h : s.OpenSince n) :
    s.OpenedIn n ↔ ∀ j, n < j → j < s.lines.length → ¬ s.Reopens j := by
  constructor
  · rintro ⟨-, -, -, hopen⟩ j hj hlt ⟨-, -, k, hclosed⟩
    simp [hopen j hj hlt k] at hclosed
  · intro hnone
    refine ⟨h.1, h.endsOpen, ⟨0, ?_⟩, fun j hj hlt k => ?_⟩
    · rw [openAt, h.2.1]
      rfl
    · by_contra hclosed
      exact hnone j hj hlt ⟨h.2.2 j hj (Nat.le_of_lt hlt), h.2.2 (j + 1) (by omega) hlt, k,
        by simpa using hclosed⟩

end Script

end ScriptOrder
