import ScriptOrder.DefaultRules
import ScriptOrder.Proofs.Matching
import ScriptOrder.Proofs.Runs

/-!
# The lines of the default rules

Each default pattern told by the lines in which it occurs: a word at the start
and the end of that word, or a keyword behind an optional `static` and the
beginning of a name. Every rule has its own first words, and of two different
ones neither begins with the other.
-/

set_option autoImplicit false

namespace ScriptOrder.DefaultRules
open CharClass Pattern

def IsGap (s : List Char) : Prop := s ≠ [] ∧ ∀ c ∈ s, isBlank c = true

/-- What may stand before the keyword of a member: nothing, or `static` and white space. -/
def IsFront (s : List Char) : Prop := s = [] ∨ ∃ gap, IsGap gap ∧ s = "static".toList ++ gap

variable {b a : Option Char} {s line : List Char}

theorem matches_spaces : spaces.Matches b a s ↔ IsGap s := by
  have hblank (c : Char) :
      (∃ t ∈ [CharTest.space true], t.accepts c = true) ↔ isBlank c = true := by
    simp [CharTest.accepts]
  rw [spaces, oneOrMore, matches_seq, IsGap]
  simp only [matches_oneOf, matches_many_oneOf, hblank]
  constructor
  · rintro ⟨_, v, rfl, ⟨c, rfl, hc⟩, hv⟩
    exact ⟨List.cons_ne_nil c v, List.forall_mem_cons.mpr ⟨hc, hv⟩⟩
  · rintro ⟨hne, hs⟩
    obtain ⟨c, v, rfl⟩ := List.exists_cons_of_ne_nil hne
    obtain ⟨hc, hv⟩ := List.forall_mem_cons.mp hs
    exact ⟨[c], v, rfl, ⟨c, rfl, hc⟩, hv⟩

theorem matches_front :
    (optional (seq (word "static".toList) spaces)).Matches b a s ↔ IsFront s := by
  simp only [matches_optional, matches_word_seq, matches_spaces, IsFront, and_comm]

def EdgeBetween (s rest : List Char) : Prop := (wordAt s.getLast? != wordAt rest.head?) = true

theorem keyword_iff {w : String} : (keyword w).occursIn line = true ↔
    ∃ rest, line = w.toList ++ rest ∧ EdgeBetween w.toList rest := by
  simp only [keyword, all, occursIn_start, matches_word_seq, matches_wordEdge, Option.or_none]
  constructor
  · rintro ⟨_, rest, rfl, _, rfl, rfl, hedge⟩
    exact ⟨rest, by rw [List.append_nil], hedge⟩
  · rintro ⟨rest, rfl, hedge⟩
    exact ⟨w.toList, rest, rfl, [], (List.append_nil _).symm, rfl, hedge⟩

theorem annotated_iff {w : String} : (annotated w).occursIn line = true ↔
    ∃ sign rest, (sign = [] ∨ sign = ['@']) ∧ line = sign ++ w.toList ++ rest ∧
      EdgeBetween (sign ++ w.toList) rest := by
  have hlast (sign : List Char) :
      w.toList.getLast?.or (sign.getLast?.or none) = (sign ++ w.toList).getLast? := by
    rw [List.getLast?_append, Option.or_none]
  simp only [annotated, all, occursIn_start, matches_seq (p := optional _), matches_optional,
    matches_char, matches_word_seq, matches_wordEdge, hlast]
  constructor
  · rintro ⟨_, rest, rfl, sign, _, rfl, hsign, _, rfl, rfl, hedge⟩
    exact ⟨sign, rest, hsign, by rw [List.append_nil], hedge⟩
  · rintro ⟨sign, rest, hsign, rfl, hedge⟩
    exact ⟨_, rest, rfl, sign, w.toList, rfl, hsign, [], (List.append_nil _).symm, rfl, hedge⟩

theorem exported_iff : exportPattern.occursIn line = true ↔
    (∃ rest, line = "export".toList ++ rest ∧ EdgeBetween "export".toList rest) ∨
      ∃ rest, line = "@export".toList ++ rest := by
  simp only [exportPattern, all, occursIn_start, matches_either, matches_word, matches_word_seq,
    matches_wordEdge, Option.or_none]
  constructor
  · rintro ⟨_, rest, rfl, ⟨_, rfl, rfl, hedge⟩ | rfl⟩
    · exact .inl ⟨rest, by rw [List.append_nil], hedge⟩
    · exact .inr ⟨rest, rfl⟩
  · rintro (⟨rest, rfl, hedge⟩ | ⟨rest, rfl⟩)
    · exact ⟨_, rest, rfl, .inl ⟨[], (List.append_nil _).symm, rfl, hedge⟩⟩
    · exact ⟨_, rest, rfl, .inr rfl⟩

theorem member_iff {w : String} {name : Pattern} : (member w name).occursIn line = true ↔
    ∃ front gap u v, IsFront front ∧ IsGap gap ∧ line = front ++ (w.toList ++ (gap ++ (u ++ v))) ∧
      name.Matches gap.getLast? v.head? u := by
  have hlast {gap : List Char} (hgap : IsGap gap) (b : Option Char) :
      gap.getLast?.or b = gap.getLast? := by
    rw [List.getLast?_eq_some_getLast hgap.1, Option.some_or]
  simp only [member, all, occursIn_start, matches_seq (p := optional _), matches_front,
    matches_word_seq, matches_seq (p := spaces), matches_spaces]
  constructor
  · rintro ⟨_, v, rfl, front, _, rfl, hfront, _, rfl, gap, u, rfl, hgap, hname⟩
    exact ⟨front, gap, u, v, hfront, hgap, by simp only [List.append_assoc], hlast hgap _ ▸ hname⟩
  · rintro ⟨front, gap, u, v, hfront, hgap, rfl, hname⟩
    refine ⟨front ++ (w.toList ++ (gap ++ u)), v, by simp only [List.append_assoc], front, _, rfl,
      hfront, _, rfl, gap, u, rfl, hgap, ?_⟩
    rwa [hlast hgap]

def firstWords : Kind → List String
  | .tool => ["tool", "@tool"]
  | .className => ["class_name"]
  | .base => ["extends"]
  | .signal => ["signal"]
  | .enumeration => ["enum"]
  | .constant => ["const"]
  | .exported => ["export", "@export"]
  | .publicVar | .privateVar => ["var", "static"]
  | .onready => ["onready", "@onready"]
  | .init | .ready | .callback | .publicFunc | .privateFunc => ["func", "static"]
  | .loose => []

theorem firstWords_apart : ∀ k ∈ Kind.all, ∀ l ∈ Kind.all, ∀ v ∈ firstWords k,
    ∀ w ∈ firstWords l, v.toList <+: w.toList → v = w := by decide +kernel

theorem mem_kinds (k : Kind) : k ∈ Kind.all := by cases k <;> decide

theorem firstWord_unique {k l : Kind} {v w : String} (hv : v ∈ firstWords k)
    (hw : w ∈ firstWords l) (hvline : v.toList <+: line) (hwline : w.toList <+: line) : v = w := by
  obtain h | h := List.prefix_or_prefix_of_prefix hvline hwline
  · exact firstWords_apart k (mem_kinds k) l (mem_kinds l) v hv w hw h
  · exact (firstWords_apart l (mem_kinds l) k (mem_kinds k) w hw v hv h).symm

theorem keyword_begins {w : String} (h : (keyword w).occursIn line = true) :
    ∃ v ∈ [w], v.toList <+: line := by
  obtain ⟨rest, rfl, _⟩ := keyword_iff.mp h
  exact ⟨w, List.mem_singleton_self w, List.prefix_append _ _⟩

theorem annotated_begins {w sw : String} (hsw : sw.toList = '@' :: w.toList)
    (h : (annotated w).occursIn line = true) : ∃ v ∈ [w, sw], v.toList <+: line := by
  obtain ⟨sign, rest, rfl | rfl, rfl, _⟩ := annotated_iff.mp h
  · exact ⟨w, by simp, List.prefix_append _ _⟩
  · exact ⟨sw, by simp, hsw ▸ List.prefix_append _ _⟩

theorem exported_begins (h : exportPattern.occursIn line = true) :
    ∃ v ∈ ["export", "@export"], v.toList <+: line := by
  obtain ⟨rest, rfl, _⟩ | ⟨rest, rfl⟩ := exported_iff.mp h
  · exact ⟨"export", by simp, List.prefix_append _ _⟩
  · exact ⟨"@export", by simp, List.prefix_append _ _⟩

theorem IsFront.begins {front : List Char} (h : IsFront front) (w : String) (t : List Char) :
    ∃ v ∈ [w, "static"], v.toList <+: front ++ (w.toList ++ t) := by
  obtain rfl | ⟨gap, _, rfl⟩ := h
  · exact ⟨w, by simp, List.prefix_append _ _⟩
  · exact ⟨"static", by simp, List.append_assoc _ _ _ ▸ List.prefix_append _ _⟩

theorem member_begins {w : String} {name : Pattern} (h : (member w name).occursIn line = true) :
    ∃ v ∈ [w, "static"], v.toList <+: line := by
  obtain ⟨front, gap, u, v, hfront, _, rfl, _⟩ := member_iff.mp h
  exact hfront.begins w _

theorem begins_firstWord : ∀ rule ∈ table, rule.2.occursIn line = true →
    ∃ w ∈ firstWords rule.1, w.toList <+: line := by
  simp only [table, List.forall_mem_cons]
  exact ⟨annotated_begins rfl, keyword_begins, keyword_begins, keyword_begins, keyword_begins,
    keyword_begins, exported_begins, member_begins, member_begins, annotated_begins rfl,
    member_begins, member_begins, member_begins, member_begins, member_begins,
    List.forall_mem_nil _⟩

/-- A text whose first character is neither white space nor that of `static`. -/
def Stands (t : List Char) : Prop := ∃ c ∈ t.head?, isBlank c = false ∧ c ≠ 's'

theorem Stands.unblank {t : List Char} (h : Stands t) : ∀ c ∈ t.head?, isBlank c = false :=
  fun c hc => (forall_head h c hc).1

theorem not_stands_static (t : List Char) : ¬ Stands ("static".toList ++ t) := by
  rintro ⟨c, hc, _, hs⟩
  exact hs (Option.some.inj hc).symm

theorem IsFront.unique {front front' t t' : List Char} (hfront : IsFront front)
    (hfront' : IsFront front') (ht : Stands t) (ht' : Stands t')
    (h : front ++ t = front' ++ t') : front = front' ∧ t = t' := by
  obtain rfl | ⟨gap, hgap, rfl⟩ := hfront <;> obtain rfl | ⟨gap', hgap', rfl⟩ := hfront'
  · exact ⟨rfl, h⟩
  · rw [List.nil_append, List.append_assoc] at h
    exact absurd (h ▸ ht) (not_stands_static _)
  · rw [List.nil_append, List.append_assoc] at h
    exact absurd (h ▸ ht') (not_stands_static _)
  · rw [List.append_assoc, List.append_assoc] at h
    obtain ⟨rfl, rfl⟩ := run_unique hgap.2 hgap'.2 ht.unblank ht'.unblank
      (List.append_cancel_left h)
    exact ⟨rfl, rfl⟩

end ScriptOrder.DefaultRules
