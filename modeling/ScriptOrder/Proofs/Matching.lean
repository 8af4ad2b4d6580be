import Mathlib.Data.List.Basic
import ScriptOrder.Pattern

/-!
# What a pattern matches

The texts of a pattern between two neighbours, constructor by constructor and
without the derivatives. The derivative by a character takes that character off
the front of each of these texts, so a search finds a pattern exactly where one
of its texts stands in the line.
-/

set_option autoImplicit false

namespace ScriptOrder.Pattern
open CharClass

/-- The texts that a pattern matches between the neighbours `before` and
`after`, where `none` is an end of the line. -/
inductive Matches : Pattern → Option Char → Option Char → List Char → Prop
  | empty {before after} : Matches .empty before after []
  | lineStart {after} : Matches .lineStart none after []
  | lineEnd {before} : Matches .lineEnd before none []
  | wordEdge {before after present} (h : (wordAt before != wordAt after) = present) :
      Matches (.wordEdge present) before after []
  | oneOf {before after tests c} (h : ∃ t ∈ tests, t.accepts c = true) :
      Matches (.oneOf tests) before after [c]
  | noneOf {before after tests c} (h : ∀ t ∈ tests, t.accepts c = false) :
      Matches (.noneOf tests) before after [c]
  | seq {p q before after u v} (hp : Matches p before (v.head?.or after) u)
      (hq : Matches q (u.getLast?.or before) after v) : Matches (.seq p q) before after (u ++ v)
  | left {p q before after s} (h : Matches p before after s) : Matches (.either p q) before after s
  | right {p q before after s} (h : Matches q before after s) : Matches (.either p q) before after s
  | none {p before after} : Matches (.many p) before after []
  | more {p before after u v} (hp : Matches p before (v.head?.or after) u)
      (hmany : Matches (.many p) (u.getLast?.or before) after v) :
      Matches (.many p) before after (u ++ v)

variable {p q : Pattern} {b a : Option Char} {s : List Char}

theorem exists_split_nil {P : List Char → List Char → Prop} :
    (∃ u v, [] = u ++ v ∧ P u v) ↔ P [] [] := by
  constructor
  · rintro ⟨u, v, huv, h⟩
    obtain ⟨rfl, rfl⟩ := List.nil_eq_append_iff.mp huv
    exact h
  · intro h
    exact ⟨[], [], rfl, h⟩

theorem exists_split_cons {P : List Char → List Char → Prop} {c : Char} :
    (∃ u v, c :: s = u ++ v ∧ P u v) ↔ P [] (c :: s) ∨ ∃ u v, s = u ++ v ∧ P (c :: u) v := by
  constructor
  · rintro ⟨u, v, huv, h⟩
    obtain ⟨rfl, rfl⟩ | ⟨u, rfl, rfl⟩ := List.cons_eq_append_iff.mp huv
    · exact .inl h
    · exact .inr ⟨u, v, rfl, h⟩
  · rintro (h | ⟨u, v, rfl, h⟩)
    · exact ⟨[], c :: s, rfl, h⟩
    · exact ⟨c :: u, v, rfl, h⟩

/-- The character before what follows a text, seen from behind its first one. -/
theorem getLast?_cons_or (c : Char) (u : List Char) (b : Option Char) :
    (c :: u).getLast?.or b = u.getLast?.or (some c) := by
  cases hu : u.getLast? <;> simp [List.getLast?_cons, hu]

@[simp] theorem matches_never : ¬ never.Matches b a s := nofun

@[simp] theorem matches_empty : empty.Matches b a s ↔ s = [] :=
  ⟨fun h => by cases h; rfl, fun h => h ▸ .empty⟩

@[simp] theorem matches_lineStart : lineStart.Matches b a s ↔ s = [] ∧ b = .none :=
  ⟨fun h => by cases h; exact ⟨rfl, rfl⟩, fun ⟨hs, hb⟩ => hs ▸ hb ▸ .lineStart⟩

@[simp] theorem matches_lineEnd : lineEnd.Matches b a s ↔ s = [] ∧ a = .none :=
  ⟨fun h => by cases h; exact ⟨rfl, rfl⟩, fun ⟨hs, ha⟩ => hs ▸ ha ▸ .lineEnd⟩

@[simp] theorem matches_wordEdge {present : Bool} : (wordEdge present).Matches b a s ↔
    s = [] ∧ (wordAt b != wordAt a) = present :=
  ⟨fun h => by cases h with | wordEdge h => exact ⟨rfl, h⟩, fun ⟨hs, h⟩ => hs ▸ .wordEdge h⟩

@[simp] theorem matches_oneOf {tests : List CharTest} : (oneOf tests).Matches b a s ↔
    ∃ c, s = [c] ∧ ∃ t ∈ tests, t.accepts c = true :=
  ⟨fun h => by cases h with | oneOf h => exact ⟨_, rfl, h⟩, fun ⟨_, hs, h⟩ => hs ▸ .oneOf h⟩

@[simp] theorem matches_noneOf {tests : List CharTest} : (noneOf tests).Matches b a s ↔
    ∃ c, s = [c] ∧ ∀ t ∈ tests, t.accepts c = false :=
  ⟨fun h => by cases h with | noneOf h => exact ⟨_, rfl, h⟩, fun ⟨_, hs, h⟩ => hs ▸ .noneOf h⟩

theorem matches_seq : (seq p q).Matches b a s ↔
    ∃ u v, s = u ++ v ∧ p.Matches b (v.head?.or a) u ∧ q.Matches (u.getLast?.or b) a v :=
  ⟨fun h => by cases h with | seq hp hq => exact ⟨_, _, rfl, hp, hq⟩,
   fun ⟨_, _, hs, hp, hq⟩ => hs ▸ .seq hp hq⟩

@[simp] theorem matches_either : (either p q).Matches b a s ↔
    p.Matches b a s ∨ q.Matches b a s := by
  constructor
  · intro h
    cases h with
    | left h => exact .inl h
    | right h => exact .inr h
  · rintro (h | h)
    · exact .left h
    · exact .right h

theorem passes_iff (p : Pattern) (b a : Option Char) :
    p.passes b a = true ↔ p.Matches b a [] := by
  induction p with
  | seq p q ihp ihq =>
    rw [passes, Bool.and_eq_true, ihp, ihq, matches_seq, exists_split_nil]
    rfl
  | either p q ihp ihq => rw [passes, Bool.or_eq_true, ihp, ihq, matches_either]
  | many p _ => simp [passes, Matches.none]
  | never => simp [passes]
  | empty => simp [passes]
  | lineStart => simp [passes]
  | lineEnd => simp [passes]
  | wordEdge present => simp [passes]
  | oneOf tests => simp [passes]
  | noneOf tests => simp [passes]

theorem matches_seq_cons {c : Char} : (seq p q).Matches b a (c :: s) ↔
    p.Matches b (some c) [] ∧ q.Matches b a (c :: s) ∨
    ∃ u v, s = u ++ v ∧ p.Matches b (v.head?.or a) (c :: u) ∧
      q.Matches (u.getLast?.or (some c)) a v := by
  rw [matches_seq, exists_split_cons]
  simp only [getLast?_cons_or]
  rfl

theorem matches_many_cons {c : Char} : (many p).Matches b a (c :: s) ↔
    ∃ u v, s = u ++ v ∧ p.Matches b (v.head?.or a) (c :: u) ∧
      (many p).Matches (u.getLast?.or (some c)) a v := by
  constructor
  · intro h
    generalize hm : many p = m at h
    generalize ht : c :: s = t at h
    induction h with
    | @more r before after u v hp hmany _ ih =>
      cases hm
      cases u with
      | nil => exact ih rfl ht
      | cons d u =>
        obtain ⟨rfl, rfl⟩ := List.cons_eq_cons.mp ht
        exact ⟨u, v, rfl, hp, getLast?_cons_or c u before ▸ hmany⟩
    | _ => simp_all
  · rintro ⟨u, v, rfl, hp, hmany⟩
    exact .more (u := c :: u) hp (getLast?_cons_or c u b ▸ hmany)

theorem matches_join (p q : Pattern) (b a : Option Char) (s : List Char) :
    (join p q).Matches b a s ↔ (seq p q).Matches b a s := by
  unfold join
  split
  · simp [matches_seq]
  · simp [matches_seq]
  · rfl

theorem matches_any (ps : List Pattern) (b a : Option Char) (s : List Char) :
    (any ps).Matches b a s ↔ ∃ p ∈ ps, p.Matches b a s := by
  induction ps with
  | nil => simp [any]
  | cons p ps ih =>
    cases ps with
    | nil => simp [any]
    | cons q ps =>
      rw [any, matches_either, ih]
      · simp only [List.mem_cons, exists_eq_or_imp]
      · nofun

theorem matches_choices (p : Pattern) (b a : Option Char) (s : List Char) :
    (∃ r ∈ choices p, r.Matches b a s) ↔ p.Matches b a s := by
  induction p with
  | never => simp [choices]
  | either p q ihp ihq => simp only [choices, List.mem_append, or_and_right, exists_or, ihp, ihq,
      matches_either]
  | _ => simp [choices]

theorem matches_union (p q : Pattern) (b a : Option Char) (s : List Char) :
    (union p q).Matches b a s ↔ p.Matches b a s ∨ q.Matches b a s := by
  unfold union
  split
  · simp
  · simp
  · rw [matches_any, ← matches_choices p, ← matches_choices q]
    constructor
    · rintro ⟨r, hr, h⟩
      obtain hr | hr := List.mem_append.mp hr
      · exact .inr ⟨r, hr, h⟩
      · exact .inl ⟨r, (List.mem_filter.mp hr).1, h⟩
    · rintro (⟨r, hr, h⟩ | ⟨r, hr, h⟩)
      · by_cases hq : r ∈ choices q
        · exact ⟨r, List.mem_append_left _ hq, h⟩
        · exact ⟨r, List.mem_append_right _ (List.mem_filter.mpr ⟨hr, by simpa using hq⟩), h⟩
      · exact ⟨r, List.mem_append_left _ hr, h⟩

/-- The derivative matches what the pattern matches after `c`. -/
theorem matches_derive (p : Pattern) (b a : Option Char) (c : Char) (s : List Char) :
    (p.derive b c).Matches (some c) a s ↔ p.Matches b a (c :: s) := by
  induction p generalizing a s with
  | oneOf tests =>
    rw [derive]
    split <;> simp_all
  | noneOf tests =>
    rw [derive]
    split <;> simp_all
  | seq p q ihp ihq =>
    have hleft : (join (p.derive b c) q).Matches (some c) a s ↔ ∃ u v, s = u ++ v ∧
        p.Matches b (v.head?.or a) (c :: u) ∧ q.Matches (u.getLast?.or (some c)) a v := by
      simp only [matches_join, matches_seq, ihp]
    rw [derive, matches_seq_cons, ← hleft, ← passes_iff]
    by_cases hpass : p.passes b (some c) = true
    · rw [if_pos hpass, matches_union, ihq, or_comm]
      simp only [hpass, true_and]
    · simp only [hpass, if_false, false_and, false_or, Bool.false_eq_true]
  | either p q ihp ihq => rw [derive, matches_union, ihp, ihq, matches_either]
  | many p ih => simp only [derive, matches_join, matches_seq, ih, matches_many_cons]
  | never => simp [derive]
  | empty => simp [derive]
  | lineStart => simp [derive]
  | lineEnd => simp [derive]
  | wordEdge present => simp [derive]

theorem matchesFrom_nil (p : Pattern) (b : Option Char) :
    p.matchesFrom b [] = p.passes b none := by
  cases p <;> rfl

theorem matchesFrom_never (b : Option Char) (t : List Char) : never.matchesFrom b t = false := by
  cases t <;> rfl

theorem matchesFrom_cons (p : Pattern) (b : Option Char) (c : Char) (t : List Char) :
    p.matchesFrom b (c :: t) =
      (p.passes b (some c) || (p.derive b c).matchesFrom (some c) t) := by
  cases p with
  | never => rw [matchesFrom_never, derive, matchesFrom_never, passes, Bool.false_or] <;> nofun
  | _ => rfl

theorem matchesFrom_iff (p : Pattern) (b : Option Char) (t : List Char) :
    p.matchesFrom b t = true ↔ ∃ u v, t = u ++ v ∧ p.Matches b v.head? u := by
  induction t generalizing p b with
  | nil => rw [matchesFrom_nil, passes_iff, exists_split_nil]; rfl
  | cons c t ih =>
    rw [matchesFrom_cons, Bool.or_eq_true, passes_iff, ih, exists_split_cons]
    simp only [matches_derive]
    rfl

theorem occursFrom_iff (p : Pattern) (b : Option Char) (t : List Char) : p.occursFrom b t = true ↔
    ∃ front u v, t = front ++ (u ++ v) ∧ p.Matches (front.getLast?.or b) v.head? u := by
  induction t generalizing b with
  | nil =>
    rw [occursFrom, matchesFrom_iff]
    constructor
    · rintro ⟨u, v, huv, h⟩
      exact ⟨[], u, v, huv, h⟩
    · rintro ⟨front, u, v, huv, h⟩
      obtain ⟨rfl, huv⟩ := List.nil_eq_append_iff.mp huv
      exact ⟨u, v, huv ▸ rfl, h⟩
  | cons c t ih =>
    rw [occursFrom, Bool.or_eq_true, matchesFrom_iff, ih]
    constructor
    · rintro (⟨u, v, huv, h⟩ | ⟨front, u, v, rfl, h⟩)
      · exact ⟨[], u, v, huv, h⟩
      · exact ⟨c :: front, u, v, rfl, (getLast?_cons_or c front b).symm ▸ h⟩
    · rintro ⟨front, u, v, huv, h⟩
      obtain ⟨rfl, huv⟩ | ⟨front, rfl, rfl⟩ := List.cons_eq_append_iff.mp huv
      · exact .inl ⟨u, v, huv ▸ rfl, h⟩
      · exact .inr ⟨front, u, v, rfl, getLast?_cons_or c front b ▸ h⟩

/-- A pattern occurs in a line if one of its texts stands in it, between the
characters that are its neighbours there. -/
theorem occursIn_iff (p : Pattern) (line : List Char) : p.occursIn line = true ↔
    ∃ front u v, line = front ++ (u ++ v) ∧ p.Matches front.getLast? v.head? u := by
  simp [occursIn, occursFrom_iff]

theorem matches_optional : (optional p).Matches b a s ↔ s = [] ∨ p.Matches b a s := by
  rw [optional, matches_either, matches_empty]

theorem matches_char {c : Char} : (char c).Matches b a s ↔ s = [c] := by
  have hrange (d : Char) : (CharTest.range c c).accepts d = true ↔ d = c := by
    rw [CharTest.accepts, Bool.and_eq_true, decide_eq_true_eq, decide_eq_true_eq]
    exact ⟨fun h => Char.le_antisymm h.2 h.1, fun h => h ▸ ⟨Char.le_refl d, Char.le_refl d⟩⟩
  simp [char, hrange]

theorem matches_word {w : List Char} : (word w).Matches b a s ↔ s = w := by
  induction w generalizing b s with
  | nil => exact matches_empty
  | cons c w ih =>
    rw [word, matches_seq]
    simp only [matches_char, ih]
    exact ⟨fun ⟨u, v, hs, hu, hv⟩ => by rw [hs, hu, hv, List.singleton_append],
      fun hs => ⟨[c], w, hs, rfl, rfl⟩⟩

theorem matches_word_seq {w : List Char} : (seq (word w) p).Matches b a s ↔
    ∃ v, s = w ++ v ∧ p.Matches (w.getLast?.or b) a v := by
  rw [matches_seq]
  simp only [matches_word]
  exact ⟨fun ⟨_, v, hs, hu, hp⟩ => ⟨v, hu ▸ hs, hu ▸ hp⟩, fun ⟨v, hs, hp⟩ => ⟨w, v, hs, rfl, hp⟩⟩

theorem matches_many_oneOf {tests : List CharTest} : (many (oneOf tests)).Matches b a s ↔
    ∀ c ∈ s, ∃ t ∈ tests, t.accepts c = true := by
  induction s generalizing b with
  | nil => simp [Matches.none]
  | cons c s ih =>
    rw [matches_many_cons, List.forall_mem_cons]
    constructor
    · rintro ⟨u, v, rfl, hc, hs⟩
      obtain ⟨d, hd, ht⟩ := matches_oneOf.mp hc
      obtain ⟨rfl, rfl⟩ := List.cons_eq_cons.mp hd
      exact ⟨ht, ih.mp hs⟩
    · rintro ⟨hc, hs⟩
      exact ⟨[], s, rfl, matches_oneOf.mpr ⟨c, rfl, hc⟩, ih.mpr hs⟩

theorem occursIn_start {line : List Char} : (seq lineStart p).occursIn line = true ↔
    ∃ u v, line = u ++ v ∧ p.Matches none v.head? u := by
  rw [occursIn_iff]
  constructor
  · rintro ⟨front, u, v, rfl, h⟩
    obtain ⟨_, u, rfl, hstart, hp⟩ := matches_seq.mp h
    obtain ⟨rfl, hfront⟩ := matches_lineStart.mp hstart
    rw [List.getLast?_eq_none_iff.mp hfront] at hp ⊢
    exact ⟨u, v, rfl, hp⟩
  · rintro ⟨u, v, rfl, hp⟩
    exact ⟨[], u, v, rfl, .seq (u := []) .lineStart hp⟩

end ScriptOrder.Pattern
