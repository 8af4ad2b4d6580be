import Mathlib.Data.List.TakeWhile
import ScriptOrder.Proofs.RuleTexts
import ScriptOrder.Rulebook

/-!
# Functions by their names

The patterns and the reader of names cut a line that declares a function at the
same places. Among the rules, the edge after the name decides between a name of
its own and one that goes on, so the kind of the line, once it is settled, is a
function of the name and of the allow-list.
-/

set_option autoImplicit false

namespace ScriptOrder

namespace CharClass

def isLetter (c : Char) : Bool := 'A' ≤ c && c ≤ 'Z' || 'a' ≤ c && c ≤ 'z'

def isPlain (c : Char) : Bool := isLetter c || '0' ≤ c && c ≤ '9' || c = '_'

theorem toNat_lt_of_plain {c : Char} (h : isPlain c = true) : c.toNat < 128 := by
  simp only [isPlain, isLetter, Bool.or_eq_true, Bool.and_eq_true, decide_eq_true_eq,
    Char.le_def, UInt32.le_iff_toNat_le] at h
  obtain h | rfl := h
  · change ((65 ≤ c.toNat ∧ c.toNat ≤ 90) ∨ (97 ≤ c.toNat ∧ c.toNat ≤ 122)) ∨
      (48 ≤ c.toNat ∧ c.toNat ≤ 57) at h
    omega
  · decide

theorem classes_of_ascii {c : Char} (h : c.toNat < 128) : isName c = isPlain c ∧
    isWord c = isPlain c ∧ (isPlain c = true → isBlank c = false) := by
  have hall : ∀ n < 128, isName (Char.ofNat n) = isPlain (Char.ofNat n) ∧
      isWord (Char.ofNat n) = isPlain (Char.ofNat n) ∧
      (isPlain (Char.ofNat n) = true → isBlank (Char.ofNat n) = false) := by decide +kernel
  simpa only [Char.ofNat_toNat] using hall c.toNat h

theorem plain_classes {c : Char} (h : isPlain c = true) :
    isName c = true ∧ isWord c = true ∧ isBlank c = false := by
  obtain ⟨hname, hword, hblank⟩ := classes_of_ascii (toNat_lt_of_plain h)
  exact ⟨hname.trans h, hword.trans h, hblank h⟩

theorem unplain_of_unword {v : List Char} (h : Pattern.wordAt v.head? = false) :
    ∀ c ∈ v.head?, isPlain c = false := by
  intro c hc
  rw [Option.mem_def.mp hc, Pattern.wordAt] at h
  exact Bool.eq_false_iff.mpr fun hplain => Bool.false_ne_true (h ▸ (plain_classes hplain).2.1)

theorem unword_of_unplain {v : List Char} (hascii : ∀ c ∈ v.head?, c.toNat < 128)
    (h : ∀ c ∈ v.head?, isPlain c = false) : Pattern.wordAt v.head? = false := by
  cases hd : v.head? with
  | none => rfl
  | some d => rw [Pattern.wordAt, (classes_of_ascii (hascii d hd)).2.1, h d hd]

theorem rest?_append (word s : List Char) : rest? word (word ++ s) = some s := by
  induction word with
  | nil => rfl
  | cons c word ih => rw [List.cons_append, rest?, if_pos rfl, ih]

end CharClass

open CharClass Pattern DefaultRules

namespace Rulebook

variable {rules before : List (Kind × Pattern)} {names : Names} {line : Line}

theorem kind?_cons (k : Kind) (p : Pattern) : kind? ⟨(k, p) :: rules, names⟩ line =
    if p.occursIn line = true then some k else kind? ⟨rules, names⟩ line := by
  rw [kind?, List.find?_cons, kind?]
  cases p.occursIn line <;> rfl

theorem kind?_skip (h : ∀ rule ∈ before, ¬ rule.2.occursIn line = true) :
    kind? ⟨before ++ rules, names⟩ line = kind? ⟨rules, names⟩ line := by
  rw [kind?, List.find?_append, List.find?_eq_none.mpr h, Option.none_or, kind?]

end Rulebook

theorem func_stands (t : List Char) : Stands ("func".toList ++ t) :=
  ⟨'f', rfl, by decide, by decide⟩

theorem var_stands (t : List Char) : Stands ("var".toList ++ t) := ⟨'v', rfl, by decide, by decide⟩

theorem declaredName?_func {c : Char} {t name : List Char} (hc : isBlank c = true)
    (hname : (trimStart t).takeWhile isName = name) (hne : name ≠ []) :
    declaredName? ("func".toList ++ (c :: t)) = some name := by
  have htrim : trimStart ("func".toList ++ (c :: t)) = "func".toList ++ (c :: t) := rfl
  have hstatic : rest? "static".toList ("func".toList ++ (c :: t)) = none := rfl
  simp only [declaredName?, htrim, hstatic, rest?_append, hc, if_true, hname]

theorem declaredName?_static {gap : List Char} (hgap : IsGap gap) (t : List Char) :
    declaredName? ("static".toList ++ (gap ++ ("func".toList ++ t))) =
      declaredName? ("func".toList ++ t) := by
  have htrim : trimStart ("static".toList ++ (gap ++ ("func".toList ++ t))) =
      "static".toList ++ (gap ++ ("func".toList ++ t)) := rfl
  have hfunc : trimStart ("func".toList ++ t) = "func".toList ++ t := rfl
  have hstatic : rest? "static".toList ("func".toList ++ t) = none := rfl
  have hgone : trimStart (gap ++ ("func".toList ++ t)) = "func".toList ++ t :=
    dropWhile_run hgap.2 (func_stands t).unblank
  simp only [declaredName?, htrim, rest?_append, hgone, hfunc, hstatic]

def BeginsName (c : Char) : Prop := c = '_' ∨ isLetter c = true

theorem BeginsName.plain {c : Char} (h : BeginsName c) : isPlain c = true := by
  obtain rfl | h := h
  · rfl
  · simp [isPlain, h]

theorem unblank_begins {s : List Char} (h : ∃ c ∈ s.head?, BeginsName c) (t : List Char) :
    ∀ c ∈ (s ++ t).head?, isBlank c = false := fun c hc =>
  (plain_classes (forall_head (exists_head_append h t) c hc).plain).2.2

structure FunctionName (name : List Char) : Prop where
  begins : ∃ c ∈ name.head?, BeginsName c
  plain : ∀ c ∈ name, isPlain c = true

theorem FunctionName.ne_nil {name : List Char} (h : FunctionName name) : name ≠ [] := by
  rintro rfl
  obtain ⟨c, hc, -⟩ := h.begins
  simp at hc

theorem init_named : FunctionName "_init".toList :=
  ⟨⟨'_', rfl, .inl rfl⟩, List.all_eq_true.mp rfl⟩

theorem ready_named : FunctionName "_ready".toList :=
  ⟨⟨'_', rfl, .inl rfl⟩, List.all_eq_true.mp rfl⟩

/-- A line that declares a function: nothing or `static` and white space, `func`
and white space, the longest run of letters, digits and underscores of ASCII,
which does not begin with a digit, and the rest. -/
structure FunctionLine (line : Line) (name rest : List Char) : Prop where
  text : ∃ front gap, IsFront front ∧ IsGap gap ∧
    line = front ++ ("func".toList ++ (gap ++ (name ++ rest)))
  named : FunctionName name
  ends : ∀ c ∈ rest.head?, isPlain c = false

theorem matches_nameIs {b a : Option Char} {s : List Char} {w : String}
    (hw : FunctionName w.toList) : (nameIs w).Matches b a s ↔ s = w.toList ∧ wordAt a = false := by
  have hlast : wordAt (w.toList.getLast?.or b) = true := by
    rw [List.getLast?_eq_some_getLast hw.ne_nil, Option.some_or]
    exact (plain_classes (hw.plain _ (List.getLast_mem hw.ne_nil))).2.1
  simp only [nameIs, all, matches_word_seq, matches_wordEdge, hlast]
  simp

theorem matches_letter (b a : Option Char) (s : List Char) :
    letter.Matches b a s ↔ ∃ c, s = [c] ∧ isLetter c = true := by
  simp [letter, matches_oneOf, CharTest.accepts, isLetter]

theorem matches_underscore (b a : Option Char) (s : List Char) :
    (Pattern.char '_').Matches b a s ↔ ∃ c, s = [c] ∧ c = '_' := by
  simp [matches_char]

def OfNames (p : Pattern) : Prop := ∀ b a s, p.Matches b a s → ∃ c ∈ s.head?, BeginsName c

theorem ofNames_nameIs {w : String} (hw : FunctionName w.toList) : OfNames (nameIs w) :=
  fun _ _ _ hmatch => ((matches_nameIs hw).mp hmatch).1 ▸ hw.begins

theorem ofNames_first {p : Pattern} {P : Char → Prop}
    (hp : ∀ b a s, p.Matches b a s ↔ ∃ c, s = [c] ∧ P c) (hbegins : ∀ c, P c → BeginsName c) :
    OfNames p := by
  intro b a s hmatch
  obtain ⟨c, rfl, hc⟩ := (hp b a s).mp hmatch
  exact ⟨c, rfl, hbegins c hc⟩

def functionKinds : List Kind := [.init, .ready, .callback, .publicFunc]

theorem functions_last : ∀ rule ∈ table.take 10, rule.1 ∉ functionKinds := by decide

theorem functions_of_names : ∀ rule ∈ table.drop 10, ∃ p, rule.2 = member "func" p ∧ OfNames p := by
  have hunder := ofNames_first matches_underscore fun _ hc => .inl hc
  have hletter := ofNames_first matches_letter fun _ hc => .inr hc
  simp only [table, List.drop, List.forall_mem_cons]
  exact ⟨⟨_, rfl, ofNames_nameIs init_named⟩, ⟨_, rfl, ofNames_nameIs ready_named⟩,
    ⟨_, rfl, hunder⟩, ⟨_, rfl, hletter⟩, ⟨_, rfl, hunder⟩, List.forall_mem_nil _⟩

theorem others_first : ∀ rule ∈ table.take 10,
    (∀ v ∈ ["func", "static"], v ∉ firstWords rule.1) ∨ ∃ p, rule.2 = member "var" p := by
  simp only [table, List.take, List.forall_mem_cons]
  exact ⟨.inl (by decide), .inl (by decide), .inl (by decide), .inl (by decide),
    .inl (by decide), .inl (by decide), .inl (by decide), .inr ⟨_, rfl⟩, .inr ⟨_, rfl⟩,
    .inl (by decide), List.forall_mem_nil _⟩

namespace FunctionLine

variable {line : Line} {name rest : List Char}

theorem unblank (h : FunctionLine line name rest) :
    ∀ c ∈ (name ++ rest).head?, isBlank c = false := unblank_begins h.named.begins rest

theorem unique {name' rest' : List Char} (h : FunctionLine line name rest)
    (h' : FunctionLine line name' rest') : name' = name ∧ rest' = rest := by
  obtain ⟨front, gap, hfront, hgap, hline⟩ := h.text
  obtain ⟨front', gap', hfront', hgap', hline'⟩ := h'.text
  obtain ⟨_, htext⟩ := hfront'.unique hfront (func_stands _) (func_stands _)
    (hline'.symm.trans hline)
  obtain ⟨_, hname⟩ := run_unique hgap'.2 hgap.2 h'.unblank h.unblank
    (List.append_cancel_left htext)
  exact run_unique h'.named.plain h.named.plain h'.ends h.ends hname

theorem occurs_at (h : FunctionLine line name rest) : ∃ b : Option Char, ∀ p : Pattern,
    OfNames p → ((member "func" p).occursIn line = true ↔
      ∃ u v, name ++ rest = u ++ v ∧ p.Matches b v.head? u) := by
  obtain ⟨front, gap, hfront, hgap, hline⟩ := h.text
  refine ⟨gap.getLast?, fun p hp => ?_⟩
  rw [member_iff]
  constructor
  · rintro ⟨front', gap', u, v, hfront', hgap', hline', hmatch⟩
    obtain ⟨_, htext⟩ := hfront.unique hfront' (func_stands _) (func_stands _)
      (hline.symm.trans hline')
    have hunblank := unblank_begins (hp _ _ _ hmatch) v
    obtain ⟨rfl, hname⟩ := run_unique hgap.2 hgap'.2 h.unblank hunblank
      (List.append_cancel_left htext)
    exact ⟨u, v, hname, hmatch⟩
  · rintro ⟨u, v, htext, hmatch⟩
    exact ⟨front, gap, u, v, hfront, hgap, htext ▸ hline, hmatch⟩

theorem occurs_nameIs (h : FunctionLine line name rest) {w : String}
    (hw : FunctionName w.toList) : (member "func" (nameIs w)).occursIn line = true ↔
      wordAt rest.head? = false ∧ name = w.toList := by
  obtain ⟨b, hoccurs⟩ := h.occurs_at
  rw [hoccurs _ (ofNames_nameIs hw)]
  simp only [matches_nameIs hw]
  constructor
  · rintro ⟨u, v, htext, rfl, hv⟩
    obtain ⟨rfl, rfl⟩ := run_unique h.named.plain hw.plain h.ends (unplain_of_unword hv) htext
    exact ⟨hv, rfl⟩
  · rintro ⟨hrest, rfl⟩
    exact ⟨w.toList, rest, rfl, rfl, hrest⟩

theorem occurs_first (h : FunctionLine line name rest) {p : Pattern} {P : Char → Prop}
    (hp : ∀ b a s, p.Matches b a s ↔ ∃ c, s = [c] ∧ P c) (hbegins : ∀ c, P c → BeginsName c) :
    (member "func" p).occursIn line = true ↔ ∃ c ∈ name.head?, P c := by
  obtain ⟨b, hoccurs⟩ := h.occurs_at
  obtain ⟨d, hd, -⟩ := h.named.begins
  obtain ⟨tail, rfl⟩ := List.head?_eq_some_iff.mp hd
  rw [hoccurs p (ofNames_first hp hbegins)]
  simp only [hp]
  constructor
  · rintro ⟨_, v, htext, c, rfl, hc⟩
    obtain ⟨rfl, -⟩ := List.cons_eq_cons.mp htext
    exact ⟨d, rfl, hc⟩
  · rintro ⟨c, hcd, hc⟩
    obtain rfl := Option.some.inj hcd
    exact ⟨[d], tail ++ rest, rfl, d, rfl, hc⟩

theorem earlier (h : FunctionLine line name rest) :
    ∀ rule ∈ table.take 10, ¬ rule.2.occursIn line = true := by
  obtain ⟨front, gap, hfront, hgap, rfl⟩ := h.text
  have hvar (p : Pattern) : ¬ (member "var" p).occursIn
      (front ++ ("func".toList ++ (gap ++ (name ++ rest)))) = true := by
    intro hoccurs
    obtain ⟨front', gap', u, v, hfront', -, hline, -⟩ := member_iff.mp hoccurs
    obtain ⟨-, htext⟩ := hfront.unique hfront' (func_stands _) (var_stands _) hline
    exact absurd (List.cons_eq_cons.mp htext).1 (by decide)
  intro rule hrule hoccurs
  obtain hapart | ⟨p, hp⟩ := others_first rule hrule
  · obtain ⟨w, hw, hwline⟩ := begins_firstWord rule (List.mem_of_mem_take hrule) hoccurs
    obtain ⟨v, hv, hvline⟩ := hfront.begins "func" (gap ++ (name ++ rest))
    have hvw : v = w := firstWord_unique (k := .init) hv hw hvline hwline
    exact hapart v hv (hvw ▸ hw)
  · exact hvar p (hp ▸ hoccurs)

end FunctionLine

/-- The kind under which the rules file a function, from what stands in the line. -/
def sighted (name rest : List Char) : Kind :=
  if wordAt rest.head? = false ∧ name = "_init".toList then .init
  else if wordAt rest.head? = false ∧ name = "_ready".toList then .ready
  else if name.head? = some '_' then .callback
  else .publicFunc

/-- The kind of a function by its name and the allow-list. -/
def filed (names : Names) (name : List Char) : Kind :=
  if name = "_init".toList then .init
  else if name = "_ready".toList then .ready
  else if name.head? = some '_' then if name ∈ names then .callback else .privateFunc
  else .publicFunc

theorem sighted_function (name rest : List Char) : sighted name rest ∈ functionKinds := by
  unfold sighted functionKinds
  split_ifs <;> decide

namespace FunctionLine

variable {line : Line} {name rest : List Char}

theorem kind (h : FunctionLine line name rest) :
    Rulebook.default.kind? line = some (sighted name rest) := by
  have hinit := h.occurs_nameIs init_named
  have hready := h.occurs_nameIs ready_named
  have hunder := h.occurs_first matches_underscore fun _ hc => .inl hc
  have hletter := h.occurs_first matches_letter fun _ hc => .inr hc
  have hhead : (∃ c ∈ name.head?, c = '_') ↔ name.head? = some '_' := by simp
  have hfirst : ¬ name.head? = some '_' → ∃ c ∈ name.head?, isLetter c = true := by
    intro hu
    obtain ⟨c, hc, rfl | halpha⟩ := h.named.begins
    · exact absurd hc hu
    · exact ⟨c, hc, halpha⟩
  have hrules : table = table.take 10 ++ table.drop 10 := (List.take_append_drop 10 table).symm
  rw [Rulebook.default, hrules, Rulebook.kind?_skip h.earlier, sighted]
  simp only [table, List.drop, Rulebook.kind?_cons, hinit, hready, hunder, hhead, hletter]
  split_ifs with hi hr hu ha
  · rfl
  · rfl
  · rfl
  · rfl
  · exact absurd (hfirst hu) ha

theorem declaredName (h : FunctionLine line name rest) (hnext : ∀ c ∈ rest.head?, c.toNat < 128) :
    declaredName? line = some name := by
  obtain ⟨front, gap, hfront, hgap, rfl⟩ := h.text
  obtain ⟨c, tail, rfl⟩ := List.exists_cons_of_ne_nil hgap.1
  obtain ⟨hc, htail⟩ := List.forall_mem_cons.mp hgap.2
  have htrim : trimStart (tail ++ (name ++ rest)) = name ++ rest := dropWhile_run htail h.unblank
  have hname : (trimStart (tail ++ (name ++ rest))).takeWhile isName = name := by
    rw [htrim]
    refine takeWhile_run (fun d hd => (plain_classes (h.named.plain d hd)).1) fun d hd => ?_
    rw [(classes_of_ascii (hnext d hd)).1, h.ends d hd]
  have hread : declaredName? ("func".toList ++ (c :: (tail ++ (name ++ rest)))) = some name :=
    declaredName?_func hc hname h.named.ne_nil
  obtain rfl | ⟨between, hbetween, rfl⟩ := hfront
  · exact hread
  · rw [List.append_assoc]
    exact (declaredName?_static hbetween _).trans hread

theorem settle_sighted (h : FunctionLine line name rest) (names : Names)
    (hnext : ∀ c ∈ rest.head?, c.toNat < 128) :
    (Rulebook.default.allowing names).settle (sighted name rest) line = filed names name := by
  have hedge : wordAt rest.head? = false := unword_of_unplain hnext h.ends
  simp only [sighted, filed, hedge, true_and]
  split_ifs with hi hr hu hm
  · rfl
  · rfl
  · simp only [Rulebook.settle, h.declaredName hnext]
    exact if_pos (List.contains_iff_mem.mpr hm)
  · simp only [Rulebook.settle, h.declaredName hnext]
    exact (if_neg (mt List.contains_iff_mem.mp hm)).trans (if_pos hu)
  · rfl

theorem of_kind {k : Kind} (hkind : Rulebook.default.kind? line = some k)
    (hk : k ∈ functionKinds) : ∃ name rest, FunctionLine line name rest := by
  obtain ⟨rule, hfind, rfl⟩ := Option.map_eq_some_iff.mp hkind
  have hmem : rule ∈ table.take 10 ++ table.drop 10 := by
    rw [List.take_append_drop]
    exact List.mem_of_find?_eq_some hfind
  obtain hfirst | hlast := List.mem_append.mp hmem
  · exact absurd hk (functions_last rule hfirst)
  obtain ⟨p, hp, hbegins⟩ := functions_of_names rule hlast
  obtain ⟨front, gap, u, v, hfront, hgap, hline, hmatch⟩ :=
    member_iff.mp (hp ▸ List.find?_some hfind)
  obtain ⟨c, hc, hname⟩ := exists_head_append (hbegins _ _ _ hmatch) v
  refine ⟨(u ++ v).takeWhile isPlain, (u ++ v).dropWhile isPlain, ⟨front, gap, hfront, hgap, ?_⟩,
    ⟨⟨c, ?_, hname⟩, fun d hd => List.mem_takeWhile_imp hd⟩, fun d hd => ?_⟩
  · rw [List.takeWhile_append_dropWhile]
    exact hline
  · rw [List.head?_takeWhile, Option.mem_def.mp hc, Option.mem_def, Option.filter_some,
      if_pos hname.plain]
  · have hstop := List.head?_dropWhile_not isPlain (u ++ v)
    rwa [Option.mem_def.mp hd] at hstop

end FunctionLine

/-- Functions are filed by their names alone: a line that the rules take for a
function declares one name, and what follows that name being of ASCII, the name
decides the settled kind of this line and of all lines that declare it. -/
theorem functions_filed_by_name (names : Names) {line : Line} {k : Kind}
    (hkind : (Rulebook.default.allowing names).kind? line = some k) (hk : k ∈ functionKinds) :
    ∃ name rest, FunctionLine line name rest ∧
      (∀ name' rest', FunctionLine line name' rest' → name' = name ∧ rest' = rest) ∧
      ((∀ c ∈ rest.head?, c.toNat < 128) →
        declaredName? line = some name ∧
        (Rulebook.default.allowing names).settle k line = filed names name ∧
        ∀ line' rest', FunctionLine line' name rest' → (∀ c ∈ rest'.head?, c.toNat < 128) →
          ∃ k' ∈ functionKinds, (Rulebook.default.allowing names).kind? line' = some k' ∧
            (Rulebook.default.allowing names).settle k' line' = filed names name) := by
  obtain ⟨name, rest, h⟩ := FunctionLine.of_kind hkind hk
  refine ⟨name, rest, h, fun _ _ => h.unique, fun hnext => ?_⟩
  obtain rfl : sighted name rest = k := Option.some.inj (h.kind.symm.trans hkind)
  refine ⟨h.declaredName hnext, h.settle_sighted names hnext, fun line' rest' h' hnext' => ?_⟩
  exact ⟨sighted name rest', sighted_function name rest', h'.kind, h'.settle_sighted names hnext'⟩

def lateReady : Line := "static\u00a0\u3000func\t_ready_late(delta):".toList

theorem lateReady_filed :
    let r := Rulebook.default.allowing ["_ready".toList, "_ready_late".toList]
    r.kind? lateReady = some .callback ∧ Kind.callback ∈ functionKinds ∧
      declaredName? lateReady = some "_ready_late".toList ∧
      r.settle .callback lateReady = .callback ∧
      ∃ k ∈ functionKinds, r.kind? "func _ready_late".toList = some k ∧
        r.settle k "func _ready_late".toList = .callback := by
  intro r
  have hkind : r.kind? lateReady = some .callback := by decide +kernel
  have hfront : IsFront "static\u00a0\u3000".toList :=
    .inr ⟨['\u00a0', '\u3000'], ⟨nofun, List.all_eq_true.mp rfl⟩, rfl⟩
  have hnamed : FunctionName "_ready_late".toList :=
    ⟨⟨'_', rfl, .inl rfl⟩, List.all_eq_true.mp rfl⟩
  have hline : FunctionLine lateReady "_ready_late".toList "(delta):".toList :=
    ⟨⟨_, ['\t'], hfront, ⟨nofun, List.all_eq_true.mp rfl⟩, rfl⟩, hnamed,
      forall_head ⟨'(', rfl, rfl⟩⟩
  have hbare : FunctionLine "func _ready_late".toList "_ready_late".toList [] :=
    ⟨⟨[], [' '], .inl rfl, ⟨nofun, List.all_eq_true.mp rfl⟩, rfl⟩, hnamed, nofun⟩
  obtain ⟨name, rest, -, hunique, hfiled⟩ := functions_filed_by_name _ hkind (by decide)
  obtain ⟨rfl, rfl⟩ := hunique _ _ hline
  obtain ⟨hname, hsettled, hsame⟩ := hfiled (forall_head ⟨'(', rfl, by decide⟩)
  exact ⟨hkind, by decide, hname, hsettled, hsame _ [] hbare nofun⟩

end ScriptOrder
