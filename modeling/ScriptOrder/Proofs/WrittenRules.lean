import Mathlib.Data.List.Forall2
import ScriptOrder.DefaultRules
import ScriptOrder.Proofs.Matching
import ScriptOrder.RuleReader

/-!
# The default rules as they are written

The rules that are read from the written patterns differ from the table in how their
sequences are nested. Brought to one nesting they are the same, and so they occur in
the same lines.
-/

set_option autoImplicit false

namespace ScriptOrder

namespace Pattern

/-- A pattern and then `k`, as one sequence that is nested to the right. -/
def chain : Pattern → Pattern → Pattern
  | empty, k => k
  | seq p q, k => chain p (chain q k)
  | either p q, k => seq (either (chain p empty) (chain q empty)) k
  | many p, k => seq (many (chain p empty)) k
  | p, k => seq p k

def normal (p : Pattern) : Pattern := chain p empty

def Equal (p q : Pattern) : Prop := ∀ b a s, p.Matches b a s ↔ q.Matches b a s

variable {p p' q q' k : Pattern}

theorem Equal.refl (p : Pattern) : Equal p p := fun _ _ _ => Iff.rfl

theorem Equal.symm (h : Equal p q) : Equal q p := fun b a s => (h b a s).symm

theorem Equal.trans (h : Equal p q) (h' : Equal q k) : Equal p k := fun b a s =>
  (h b a s).trans (h' b a s)

theorem Equal.seq (hp : Equal p p') (hq : Equal q q') : Equal (seq p q) (seq p' q') := by
  intro b a s
  simp only [matches_seq, hp _ _ _, hq _ _ _]

theorem Equal.either (hp : Equal p p') (hq : Equal q q') : Equal (either p q) (either p' q') := by
  intro b a s
  rw [matches_either, matches_either, hp, hq]

theorem many_mono (h : ∀ b a s, p.Matches b a s → q.Matches b a s) {b a : Option Char}
    {s : List Char} (hm : (many p).Matches b a s) : (many q).Matches b a s := by
  generalize hr : many p = r at hm
  induction hm with
  | none => exact .none
  | more hp _ _ ih =>
    cases hr
    exact .more (h _ _ _ hp) (ih rfl)
  | _ => cases hr

theorem Equal.many (h : Equal p q) : Equal (many p) (many q) := fun _ _ _ =>
  ⟨many_mono fun b a s => (h b a s).mp, many_mono fun b a s => (h b a s).mpr⟩

theorem seq_empty (p : Pattern) : Equal (.seq p empty) p := by
  intro b a s
  rw [matches_seq]
  constructor
  · rintro ⟨u, v, rfl, hp, hv⟩
    obtain rfl := matches_empty.mp hv
    simpa using hp
  · intro hp
    exact ⟨s, [], by simp, by simpa using hp, .empty⟩

theorem empty_seq (p : Pattern) : Equal (.seq empty p) p := by
  intro b a s
  rw [matches_seq]
  constructor
  · rintro ⟨u, v, rfl, hu, hp⟩
    obtain rfl := matches_empty.mp hu
    simpa using hp
  · intro hp
    exact ⟨[], s, rfl, .empty, hp⟩

theorem seq_assoc (p q k : Pattern) : Equal (.seq (.seq p q) k) (.seq p (.seq q k)) := by
  intro b a s
  simp only [matches_seq]
  constructor
  · rintro ⟨_, w, rfl, ⟨u, v, rfl, hp, hq⟩, hk⟩
    rw [List.getLast?_append, Option.or_assoc] at hk
    refine ⟨u, v ++ w, List.append_assoc u v w, ?_, v, w, rfl, hq, hk⟩
    rwa [List.head?_append, Option.or_assoc]
  · rintro ⟨u, _, rfl, hp, v, w, rfl, hq, hk⟩
    rw [List.head?_append, Option.or_assoc] at hp
    refine ⟨u ++ v, w, (List.append_assoc u v w).symm, ⟨u, v, rfl, hp, hq⟩, ?_⟩
    rwa [List.getLast?_append, Option.or_assoc]

theorem equal_chain (p k : Pattern) : Equal (chain p k) (seq p k) := by
  have hended {p : Pattern} (h : ∀ k, Equal (chain p k) (seq p k)) : Equal (chain p empty) p :=
    (h empty).trans (seq_empty p)
  induction p generalizing k with
  | empty => exact (empty_seq k).symm
  | seq p q ihp ihq =>
    exact ((ihp _).trans ((Equal.refl p).seq (ihq k))).trans (seq_assoc p q k).symm
  | either p q ihp ihq => exact ((hended ihp).either (hended ihq)).seq (Equal.refl k)
  | many p ih => exact (hended ih).many.seq (Equal.refl k)
  | _ => exact Equal.refl _

theorem equal_normal (p : Pattern) : Equal p.normal p := (equal_chain p empty).trans (seq_empty p)

theorem Equal.occursIn (h : Equal p q) (line : List Char) : p.occursIn line = q.occursIn line := by
  rw [Bool.eq_iff_iff, occursIn_iff, occursIn_iff]
  simp only [h _ _ _]

end Pattern

namespace DefaultRules
open RuleReader

def written : List (Kind × List Char) :=
  [(.tool, "^@?tool\\b"),
   (.className, "^class_name\\b"),
   (.base, "^extends\\b"),
   (.signal, "^signal\\b"),
   (.enumeration, "^enum\\b"),
   (.constant, "^const\\b"),
   (.exported, "^(?:export\\b|@export)"),
   (.publicVar, "^(?:static\\s+)?var\\s+[A-Za-z]"),
   (.privateVar, "^(?:static\\s+)?var\\s+_"),
   (.onready, "^@?onready\\b"),
   (.init, "^(?:static\\s+)?func\\s+_init\\b"),
   (.ready, "^(?:static\\s+)?func\\s+_ready\\b"),
   (.callback, "^(?:static\\s+)?func\\s+_"),
   (.publicFunc, "^(?:static\\s+)?func\\s+[A-Za-z]"),
   (.privateFunc, "^(?:static\\s+)?func\\s+_")].map fun r => (r.1, r.2.toList)

def Agree (r d : Kind × Pattern) : Prop := r.1 = d.1 ∧ ∀ line, r.2.occursIn line = d.2.occursIn line

theorem first_kind {rules ds : List (Kind × Pattern)} (h : List.Forall₂ Agree rules ds)
    (line : Line) :
    (rules.find? fun r => r.2.occursIn line).map Prod.fst =
      (ds.find? fun d => d.2.occursIn line).map Prod.fst := by
  induction h with
  | nil => rfl
  | @cons r d _ _ hrd _ ih =>
    rw [List.find?_cons, List.find?_cons, hrd.2 line]
    split
    · exact congrArg some hrd.1
    · exact ih

def normalRule (r : Kind × Pattern) : Kind × Pattern := (r.1, r.2.normal)

theorem normal_written :
    (readRules written).toOption.map (List.map normalRule) = some (table.map normalRule) := by
  decide +kernel

/-- What is read from the written patterns is the table, kind by kind, up to the
nesting of the patterns. -/
theorem written_read :
    ∃ rules, readRules written = .ok rules ∧ List.Forall₂ Agree rules table := by
  obtain ⟨rules, hread, hnormal⟩ := Option.map_eq_some_iff.mp normal_written
  cases hrules : readRules written with
  | error e => simp [hrules, Except.toOption] at hread
  | ok rs =>
    rw [hrules] at hread
    obtain rfl : rs = rules := Option.some.inj hread
    refine ⟨rs, rfl, ?_⟩
    have hsame : List.Forall₂ (fun r d => normalRule r = normalRule d) rs table := by
      rw [← List.forall₂_map_right_iff, ← List.forall₂_map_left_iff, List.forall₂_eq_eq_eq]
      exact hnormal
    apply hsame.imp
    intro r d hrd
    obtain ⟨hkind, hpattern⟩ := Prod.mk.inj hrd
    refine ⟨hkind, fun line => ?_⟩
    rw [← (Pattern.equal_normal r.2).occursIn, hpattern, (Pattern.equal_normal d.2).occursIn]

theorem written_kind? (callbacks : Names) : ∃ r, readRulebook written callbacks = .ok r ∧
    ∀ line, r.kind? line = Rulebook.default.kind? line := by
  obtain ⟨rules, hread, hsame⟩ := written_read
  exact ⟨⟨rules, callbacks⟩, by rw [readRulebook, hread]; rfl, first_kind hsame⟩

end DefaultRules

end ScriptOrder
