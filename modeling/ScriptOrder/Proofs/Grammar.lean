import Mathlib.Data.List.Nodup
import ScriptOrder.Proofs.FunctionNames

/-!
# The grammar of the default rules

`Accepts` tells the lines of each kind without patterns: words at the start of
the line that no word character goes on with, and members behind an optional
`static`. Only the rules of functions whose name begins with an underscore share
lines, and among them the narrower rule goes first. So every order of the rules
that keeps these few in order gives each line the same kind.
-/

set_option autoImplicit false

namespace ScriptOrder

section First

variable {α : Type} {p : α → Bool} {goesFirst : α → α → Bool} {l : List α} {x y : α}

/-- If of two elements that pass the test one goes first, the first one found is the
one that no other goes before. -/
theorem find?_eq_some_iff_first (hself : ∀ x, goesFirst x x = false)
    (hordered : l.Pairwise fun x y => goesFirst y x = false)
    (htotal : ∀ x ∈ l, ∀ y ∈ l, p x = true → p y = true →
      x = y ∨ goesFirst x y = true ∨ goesFirst y x = true) :
    l.find? p = some x ↔ x ∈ l ∧ p x = true ∧ ∀ y ∈ l, p y = true → goesFirst y x = false := by
  have hfirst (z : α) (hz : l.find? p = some z) (y : α) (hy : y ∈ l) (hpy : p y = true) :
      goesFirst y z = false := by
    obtain ⟨-, before, after, rfl, hbefore⟩ := List.find?_eq_some_iff_append.mp hz
    rcases List.mem_append.mp hy with hy | hy
    · exact absurd hpy (by simpa using hbefore y hy)
    · rcases List.mem_cons.mp hy with rfl | hy
      · exact hself y
      · exact (List.pairwise_cons.mp (List.pairwise_append.mp hordered).2.1).1 y hy
  constructor
  · intro hx
    exact ⟨List.mem_of_find?_eq_some hx, List.find?_some hx, hfirst x hx⟩
  · rintro ⟨hx, hpx, hleast⟩
    obtain ⟨z, hz⟩ := Option.isSome_iff_exists.mp (List.find?_isSome.mpr ⟨x, hx, hpx⟩)
    have hzl := List.mem_of_find?_eq_some hz
    have hpz := List.find?_some hz
    obtain rfl | h | h := htotal x hx z hzl hpx hpz
    · exact hz
    · simp [hfirst z hz x hx hpx] at h
    · simp [hleast z hzl hpz] at h

theorem idxOf_lt_idxOf [DecidableEq α] (hnodup : l.Nodup) (h : [x, y].Sublist l) :
    l.idxOf x < l.idxOf y := by
  obtain ⟨front, back, rfl, hx, hy⟩ := List.cons_sublist_iff.mp h
  have hyf : y ∉ front := fun hmem =>
    (List.nodup_append.mp hnodup).2.2 y hmem y (List.singleton_sublist.mp hy) rfl
  rw [List.idxOf_append_of_mem hx, List.idxOf_append_of_notMem hyf]
  have hlt := List.idxOf_lt_length_of_mem hx
  omega

end First

open CharClass Pattern

namespace DefaultRules

/-- The text begins with the word, and no character of a word follows. -/
def BeginsWord (w : String) (text : List Char) : Prop :=
  ∃ rest, text = w.toList ++ rest ∧ wordAt rest.head? = false

def BeginsLetter (name : List Char) : Prop := ∃ c ∈ name.head?, isLetter c = true

def BeginsUnderscore (name : List Char) : Prop := ∃ c ∈ name.head?, c = '_'

/-- The text stands in the line after the keyword and white space, before which there
may be `static` and white space. -/
def NameAt (w : String) (line : Line) (name : List Char) : Prop :=
  ∃ front gap, IsFront front ∧ IsGap gap ∧ line = front ++ (w.toList ++ (gap ++ name))

def Member (w : String) (P : List Char → Prop) (line : Line) : Prop :=
  ∃ name, NameAt w line name ∧ P name

/-- The lines that are declarations of each kind. -/
def Accepts : Kind → Line → Prop
  | .tool, line => BeginsWord "tool" line ∨ BeginsWord "@tool" line
  | .className, line => BeginsWord "class_name" line
  | .base, line => BeginsWord "extends" line
  | .signal, line => BeginsWord "signal" line
  | .enumeration, line => BeginsWord "enum" line
  | .constant, line => BeginsWord "const" line
  | .exported, line => BeginsWord "export" line ∨ "@export".toList <+: line
  | .publicVar, line => Member "var" BeginsLetter line
  | .privateVar, line => Member "var" BeginsUnderscore line
  | .onready, line => BeginsWord "onready" line ∨ BeginsWord "@onready" line
  | .init, line => Member "func" (BeginsWord "_init") line
  | .ready, line => Member "func" (BeginsWord "_ready") line
  | .callback, line => Member "func" (fun name => BeginsUnderscore name ∧
      ¬ BeginsWord "_init" name ∧ ¬ BeginsWord "_ready" name) line
  | .publicFunc, line => Member "func" BeginsLetter line
  | .privateFunc, _ => False
  | .loose, _ => False

/-- The lines in which the pattern of each kind occurs. The patterns of callbacks
and of private functions are the same. -/
def Fits : Kind → Line → Prop
  | .callback, line => Member "func" BeginsUnderscore line
  | .privateFunc, line => Member "func" BeginsUnderscore line
  | k, line => Accepts k line

variable {line : Line}

theorem edge_iff {s rest : List Char} (h : wordAt s.getLast? = true) :
    EdgeBetween s rest ↔ wordAt rest.head? = false := by simp [EdgeBetween, h]

theorem keyword_occurs {w : String} (hw : wordAt w.toList.getLast? = true) :
    (keyword w).occursIn line = true ↔ BeginsWord w line := by
  simp only [keyword_iff, edge_iff hw, BeginsWord]

theorem annotated_occurs {w sw : String} (hsw : sw.toList = '@' :: w.toList)
    (hw : wordAt w.toList.getLast? = true) (hs : wordAt sw.toList.getLast? = true) :
    (annotated w).occursIn line = true ↔ BeginsWord w line ∨ BeginsWord sw line := by
  rw [annotated_iff]
  constructor
  · rintro ⟨_, rest, rfl | rfl, rfl, hedge⟩
    · exact .inl ⟨rest, rfl, (edge_iff hw).mp hedge⟩
    · rw [List.singleton_append, ← hsw] at hedge ⊢
      exact .inr ⟨rest, rfl, (edge_iff hs).mp hedge⟩
  · rintro (⟨rest, rfl, hrest⟩ | ⟨rest, rfl, hrest⟩)
    · exact ⟨[], rest, .inl rfl, rfl, (edge_iff hw).mpr hrest⟩
    · refine ⟨['@'], rest, .inr rfl, ?_, ?_⟩
      · rw [List.singleton_append, hsw]
      · rw [List.singleton_append, ← hsw]
        exact (edge_iff hs).mpr hrest

theorem exported_occurs : exportPattern.occursIn line = true ↔
    BeginsWord "export" line ∨ "@export".toList <+: line := by
  have hword : wordAt "export".toList.getLast? = true := by decide
  rw [exported_iff]
  simp only [edge_iff hword, BeginsWord, List.IsPrefix, eq_comm]

theorem member_occurs {w : String} {p : Pattern} {P : List Char → Prop}
    (hp : ∀ b name, (∃ u v, name = u ++ v ∧ p.Matches b v.head? u) ↔ P name) :
    (member w p).occursIn line = true ↔ Member w P line := by
  rw [member_iff]
  constructor
  · rintro ⟨front, gap, u, v, hfront, hgap, hline, hmatch⟩
    exact ⟨u ++ v, ⟨front, gap, hfront, hgap, hline⟩, (hp _ _).mp ⟨u, v, rfl, hmatch⟩⟩
  · rintro ⟨name, ⟨front, gap, hfront, hgap, hline⟩, hname⟩
    obtain ⟨u, v, rfl, hmatch⟩ := (hp gap.getLast? name).mpr hname
    exact ⟨front, gap, u, v, hfront, hgap, hline, hmatch⟩

theorem begins_first {p : Pattern} {P : Char → Prop}
    (hp : ∀ b a s, p.Matches b a s ↔ ∃ c, s = [c] ∧ P c) (b : Option Char) (name : List Char) :
    (∃ u v, name = u ++ v ∧ p.Matches b v.head? u) ↔ ∃ c ∈ name.head?, P c := by
  simp only [hp]
  constructor
  · rintro ⟨_, v, rfl, c, rfl, hc⟩
    exact ⟨c, rfl, hc⟩
  · rintro ⟨c, hc, hP⟩
    obtain ⟨v, rfl⟩ := List.head?_eq_some_iff.mp hc
    exact ⟨[c], v, rfl, c, rfl, hP⟩

theorem begins_nameIs {w : String} (hw : FunctionName w.toList) (b : Option Char)
    (name : List Char) : (∃ u v, name = u ++ v ∧ (nameIs w).Matches b v.head? u) ↔
      BeginsWord w name := by
  simp only [matches_nameIs hw, BeginsWord]
  constructor
  · rintro ⟨_, v, rfl, rfl, hv⟩
    exact ⟨v, rfl, hv⟩
  · rintro ⟨rest, rfl, hrest⟩
    exact ⟨w.toList, rest, rfl, rfl, hrest⟩

theorem occurs_iff_fits : ∀ rule ∈ table, (rule.2.occursIn line = true ↔ Fits rule.1 line) := by
  have hletter := begins_first matches_letter
  have hunder := begins_first matches_underscore
  simp only [table, List.forall_mem_cons]
  exact ⟨annotated_occurs rfl (by decide) (by decide), keyword_occurs (by decide),
    keyword_occurs (by decide), keyword_occurs (by decide), keyword_occurs (by decide),
    keyword_occurs (by decide), exported_occurs, member_occurs hletter, member_occurs hunder,
    annotated_occurs rfl (by decide) (by decide), member_occurs (begins_nameIs init_named),
    member_occurs (begins_nameIs ready_named), member_occurs hunder, member_occurs hletter,
    member_occurs hunder, List.forall_mem_nil _⟩

theorem BeginsUnderscore.of_word {w : String} {name : List Char} (h : BeginsWord w name)
    (hw : ∃ c ∈ w.toList.head?, c = '_') : BeginsUnderscore name := by
  obtain ⟨rest, rfl, -⟩ := h
  exact exists_head_append hw rest

theorem BeginsWord.begins {w : String} {name : List Char} (h : BeginsWord w name)
    (hw : FunctionName w.toList) : ∃ c ∈ name.head?, BeginsName c := by
  obtain ⟨rest, rfl, -⟩ := h
  exact exists_head_append hw.begins rest

theorem BeginsWord.unique {v w : String} (hv : FunctionName v.toList) (hw : FunctionName w.toList)
    {name : List Char} (h : BeginsWord v name) (h' : BeginsWord w name) : v = w := by
  obtain ⟨rest, rfl, hrest⟩ := h
  obtain ⟨rest', htext, hrest'⟩ := h'
  exact String.toList_inj.mp (run_unique hv.plain hw.plain (unplain_of_unword hrest)
    (unplain_of_unword hrest') htext).1

theorem NameAt.unique {w w' : String} {name name' : List Char} (hw : w ∈ ["var", "func"])
    (hw' : w' ∈ ["var", "func"]) (h : NameAt w line name) (h' : NameAt w' line name')
    (hname : ∃ c ∈ name.head?, BeginsName c) (hname' : ∃ c ∈ name'.head?, BeginsName c) :
    w = w' ∧ name = name' := by
  have hstands (v : String) (hv : v ∈ ["var", "func"]) (t : List Char) : Stands (v.toList ++ t) := by
    rcases List.mem_pair.mp hv with rfl | rfl
    · exact var_stands t
    · exact func_stands t
  obtain ⟨front, gap, hfront, hgap, rfl⟩ := h
  obtain ⟨front', gap', hfront', hgap', hline⟩ := h'
  obtain ⟨-, htext⟩ := hfront.unique hfront' (hstands w hw _) (hstands w' hw' _) hline
  obtain rfl : w = w' := by
    rcases List.mem_pair.mp hw with rfl | rfl <;> rcases List.mem_pair.mp hw' with rfl | rfl
    · rfl
    · exact absurd (List.cons_eq_cons.mp htext).1 (by decide)
    · exact absurd (List.cons_eq_cons.mp htext).1 (by decide)
    · rfl
  have hunblank (t : List Char) (ht : ∃ c ∈ t.head?, BeginsName c) : ∀ c ∈ t.head?, isBlank c = false :=
    fun c hc => (plain_classes (forall_head ht c hc).plain).2.2
  exact ⟨rfl, (run_unique hgap.2 hgap'.2 (hunblank name hname) (hunblank name' hname')
    (List.append_cancel_left htext)).2⟩

def memberSort : Kind → Option (String × Bool)
  | .publicVar => some ("var", true)
  | .privateVar => some ("var", false)
  | .publicFunc => some ("func", true)
  | .init | .ready | .callback | .privateFunc => some ("func", false)
  | _ => none

def underscoreFunctions : List Kind := [.init, .ready, .callback, .privateFunc]

theorem memberSort_word {k : Kind} {w : String} {lettered : Bool} (h : memberSort k = some (w, lettered)) :
    w ∈ ["var", "func"] := by
  cases k <;> simp_all [memberSort]

def BeginsAs (lettered : Bool) (name : List Char) : Prop :=
  if lettered then BeginsLetter name else BeginsUnderscore name

theorem BeginsAs.begins {lettered : Bool} {name : List Char} (h : BeginsAs lettered name) :
    ∃ c ∈ name.head?, BeginsName c := by
  cases lettered with
  | true =>
    obtain ⟨c, hc, hletter⟩ : BeginsLetter name := h
    exact ⟨c, hc, .inr hletter⟩
  | false =>
    obtain ⟨c, hc, hunder⟩ : BeginsUnderscore name := h
    exact ⟨c, hc, .inl hunder⟩

theorem BeginsAs.unique {p q : Bool} {name : List Char} (h : BeginsAs p name) (h' : BeginsAs q name) :
    p = q := by
  have hapart : BeginsLetter name → ¬ BeginsUnderscore name := by
    rintro ⟨c, hc, hletter⟩ hunder
    exact absurd hletter (forall_head hunder c hc ▸ by decide)
  cases p <;> cases q
  · rfl
  · exact absurd h (hapart h')
  · exact absurd h' (hapart h)
  · rfl

theorem Fits.member {k : Kind} {w : String} {lettered : Bool} (h : Fits k line)
    (hk : memberSort k = some (w, lettered)) : Member w (BeginsAs lettered) line := by
  have hword {n : String} (hn : ∃ c ∈ n.toList.head?, c = '_')
      (hmember : Member "func" (BeginsWord n) line) : Member "func" BeginsUnderscore line := by
    obtain ⟨name, hat, hname⟩ := hmember
    exact ⟨name, hat, .of_word hname hn⟩
  cases k <;> cases hk
  · exact h
  · exact h
  · exact hword ⟨'_', rfl, rfl⟩ h
  · exact hword ⟨'_', rfl, rfl⟩ h
  · exact h
  · exact h
  · exact h

theorem Fits.unique {k l : Kind} (hk : ∃ w ∈ firstWords k, w.toList <+: line)
    (hl : ∃ w ∈ firstWords l, w.toList <+: line) (hkline : Fits k line) (hlline : Fits l line) :
    k = l ∨ k ∈ underscoreFunctions ∧ l ∈ underscoreFunctions := by
  obtain ⟨v, hv, hvline⟩ := hk
  obtain ⟨w, hw, hwline⟩ := hl
  obtain rfl : v = w := firstWord_unique hv hw hvline hwline
  have hshared : ∀ k ∈ Kind.all, ∀ l ∈ Kind.all, (∃ v ∈ firstWords k, v ∈ firstWords l) →
      k = l ∨ (memberSort k).isSome = true ∧ (memberSort l).isSome = true := by decide
  obtain rfl | ⟨hksome, hlsome⟩ := hshared k (mem_kinds k) l (mem_kinds l) ⟨v, hv, hw⟩
  · exact .inl rfl
  obtain ⟨⟨wk, p⟩, hkm⟩ := Option.isSome_iff_exists.mp hksome
  obtain ⟨⟨wl, q⟩, hlm⟩ := Option.isSome_iff_exists.mp hlsome
  obtain ⟨name, hat, hp⟩ := hkline.member hkm
  obtain ⟨name', hat', hq⟩ := hlline.member hlm
  obtain ⟨rfl, rfl⟩ := hat.unique (memberSort_word hkm) (memberSort_word hlm) hat' hp.begins hq.begins
  obtain rfl := hp.unique hq
  have hsame : ∀ k ∈ Kind.all, ∀ l ∈ Kind.all, memberSort k = memberSort l →
      (memberSort k).isSome = true →
      k = l ∨ k ∈ underscoreFunctions ∧ l ∈ underscoreFunctions := by decide
  exact hsame k (mem_kinds k) l (mem_kinds l) (hkm.trans hlm.symm) hksome

theorem kinds_nodup : (table.map Prod.fst).Nodup := by decide

/-- At most one rule matches a line, the family of the functions whose name begins
with an underscore apart. -/
theorem rules_apart {rule other : Kind × Pattern} (hrule : rule ∈ table) (hother : other ∈ table)
    (h : rule.2.occursIn line = true) (h' : other.2.occursIn line = true) :
    rule = other ∨ rule.1 ∈ underscoreFunctions ∧ other.1 ∈ underscoreFunctions := by
  have hunique := Fits.unique (begins_firstWord rule hrule h) (begins_firstWord other hother h')
    ((occurs_iff_fits rule hrule).mp h) ((occurs_iff_fits other hother).mp h')
  exact hunique.imp_left (List.inj_on_of_nodup_map kinds_nodup hrule hother)

theorem init_not_ready (h : Fits .init line) : ¬ Fits .ready line := by
  rintro ⟨name', hat', hready⟩
  obtain ⟨name, hat, hinit⟩ := h
  obtain ⟨-, rfl⟩ := hat.unique (by simp) (by simp) hat' (hinit.begins init_named)
    (hready.begins ready_named)
  exact absurd (hinit.unique init_named ready_named hready) (by decide)

/-- Whether the rule of the first kind is to be tried before that of the second. -/
def goesFirst : Kind → Kind → Bool
  | .init, .callback | .ready, .callback => true
  | .init, .privateFunc | .ready, .privateFunc | .callback, .privateFunc => true
  | _, _ => false

theorem not_goesFirst_self : ∀ k ∈ Kind.all, goesFirst k k = false := by decide

theorem goesFirst_total : ∀ k ∈ underscoreFunctions, ∀ l ∈ underscoreFunctions,
    k = l ∨ goesFirst k l = true ∨ goesFirst l k = true ∨ k = .init ∧ l = .ready ∨
      k = .ready ∧ l = .init := by decide

theorem accepts_iff_fits {k : Kind} :
    Accepts k line ↔ Fits k line ∧ ∀ l, Fits l line → goesFirst l k = false := by
  have hlone (hk : ∀ l ∈ Kind.all, goesFirst l k = false) (hsame : Accepts k line ↔ Fits k line) :
      Accepts k line ↔ Fits k line ∧ ∀ l, Fits l line → goesFirst l k = false :=
    hsame.trans (iff_self_and.mpr fun _ l _ => hk l (mem_kinds l))
  cases k with
  | callback =>
    have hword {w : String} {name : List Char} (hw : FunctionName w.toList)
        (hat : NameAt "func" line name) (hunder : BeginsUnderscore name) :
        Member "func" (BeginsWord w) line ↔ BeginsWord w name := by
      constructor
      · rintro ⟨name', hat', hname'⟩
        have hlower : BeginsAs false name := hunder
        obtain ⟨-, rfl⟩ := hat.unique (by simp) (by simp) hat' hlower.begins (hname'.begins hw)
        exact hname'
      · intro hname
        exact ⟨name, hat, hname⟩
    constructor
    · rintro ⟨name, hat, hunder, hinit, hready⟩
      refine ⟨⟨name, hat, hunder⟩, fun l hl => ?_⟩
      cases l
      case init => exact absurd ((hword init_named hat hunder).mp hl) hinit
      case ready => exact absurd ((hword ready_named hat hunder).mp hl) hready
      all_goals rfl
    · rintro ⟨⟨name, hat, hunder⟩, hfirst⟩
      refine ⟨name, hat, hunder, fun hinit => ?_, fun hready => ?_⟩
      · exact absurd (hfirst .init ⟨name, hat, hinit⟩) (by decide)
      · exact absurd (hfirst .ready ⟨name, hat, hready⟩) (by decide)
  | privateFunc =>
    refine ⟨False.elim, fun ⟨hfits, hfirst⟩ => ?_⟩
    exact absurd (hfirst .callback hfits) (by decide)
  | _ => exact hlone (by decide) Iff.rfl

theorem rules_comparable {rule other : Kind × Pattern} (hrule : rule ∈ table) (hother : other ∈ table)
    (h : rule.2.occursIn line = true) (h' : other.2.occursIn line = true) :
    rule = other ∨ goesFirst rule.1 other.1 = true ∨ goesFirst other.1 rule.1 = true := by
  obtain heq | ⟨hk, hl⟩ := rules_apart hrule hother h h'
  · exact .inl heq
  have hfits := (occurs_iff_fits rule hrule).mp h
  have hfits' := (occurs_iff_fits other hother).mp h'
  obtain heq | hfirst | hfirst | ⟨hinit, hready⟩ | ⟨hready, hinit⟩ :=
    goesFirst_total rule.1 hk other.1 hl
  · exact .inl (List.inj_on_of_nodup_map kinds_nodup hrule hother heq)
  · exact .inr (.inl hfirst)
  · exact .inr (.inr hfirst)
  · exact absurd (hready ▸ hfits') (init_not_ready (hinit ▸ hfits))
  · exact absurd (hready ▸ hfits) (init_not_ready (hinit ▸ hfits'))

theorem exists_rule : ∀ k ∈ Kind.all, k ≠ .loose → ∃ rule ∈ table, rule.1 = k := by decide

/-- The rules in an order that keeps those of `_init` and `_ready` before that of the
callbacks and that one before the rule of the private functions. -/
structure Ordering (rules : List (Kind × Pattern)) : Prop where
  perm : rules.Perm table
  init : [.init, .callback, .privateFunc].Sublist (rules.map Prod.fst)
  ready : [.ready, .callback, .privateFunc].Sublist (rules.map Prod.fst)

namespace Ordering

variable {rules : List (Kind × Pattern)}

theorem kept (h : Ordering rules) {k l : Kind} (hkl : goesFirst k l = true) :
    [k, l].Sublist (rules.map Prod.fst) := by
  have hpairs : ∀ k ∈ Kind.all, ∀ l ∈ Kind.all, goesFirst k l = true →
      [k, l].Sublist [.init, .callback, .privateFunc] ∨
      [k, l].Sublist [.ready, .callback, .privateFunc] := by decide
  rcases hpairs k (mem_kinds k) l (mem_kinds l) hkl with hpair | hpair
  · exact hpair.trans h.init
  · exact hpair.trans h.ready

theorem pairwise (h : Ordering rules) :
    rules.Pairwise fun rule other => goesFirst other.1 rule.1 = false := by
  have hnodup : (rules.map Prod.fst).Nodup := (h.perm.map Prod.fst).nodup_iff.mpr kinds_nodup
  have hkinds : (rules.map Prod.fst).Pairwise fun k l => goesFirst l k = false := by
    rw [List.pairwise_iff_forall_sublist]
    intro k l hkl
    by_contra hfirst
    have hlk := idxOf_lt_idxOf hnodup (h.kept (by simpa using hfirst))
    exact absurd (idxOf_lt_idxOf hnodup hkl) (Nat.lt_asymm hlk)
  exact List.pairwise_map.mp hkinds

theorem kind_iff (h : Ordering rules) (names : Names) {k : Kind} :
    (Rulebook.mk rules names).kind? line = some k ↔ Accepts k line := by
  have hfind (rule : Kind × Pattern) : rules.find? (fun rule => rule.2.occursIn line) = some rule ↔
      rule ∈ rules ∧ rule.2.occursIn line = true ∧
        ∀ other ∈ rules, other.2.occursIn line = true → goesFirst other.1 rule.1 = false :=
    find?_eq_some_iff_first (fun rule => not_goesFirst_self rule.1 (mem_kinds rule.1)) h.pairwise
      fun rule hrule other hother =>
        rules_comparable (h.perm.mem_iff.mp hrule) (h.perm.mem_iff.mp hother)
  rw [Rulebook.kind?, Option.map_eq_some_iff, accepts_iff_fits]
  simp only [hfind, h.perm.mem_iff]
  constructor
  · rintro ⟨rule, ⟨hrule, hoccurs, hleast⟩, rfl⟩
    refine ⟨(occurs_iff_fits rule hrule).mp hoccurs, fun l hl => ?_⟩
    have hloose : l ≠ .loose := by
      rintro rfl
      exact hl
    obtain ⟨other, hother, rfl⟩ := exists_rule l (mem_kinds l) hloose
    exact hleast other hother ((occurs_iff_fits other hother).mpr hl)
  · rintro ⟨hfits, hfirst⟩
    have hloose : k ≠ .loose := by
      rintro rfl
      exact hfits
    obtain ⟨rule, hrule, rfl⟩ := exists_rule k (mem_kinds k) hloose
    exact ⟨rule, ⟨hrule, (occurs_iff_fits rule hrule).mpr hfits, fun other hother hoccurs =>
      hfirst other.1 ((occurs_iff_fits other hother).mp hoccurs)⟩, rfl⟩

end Ordering

theorem ordering_table : Ordering table := ⟨.refl _, by decide, by decide⟩

end DefaultRules

open DefaultRules

/-- The default rules follow the grammar: a line gets the kind that accepts it, or none.
Only rules of functions whose name begins with an underscore match one line, so no other
order counts among the rules. -/
theorem default_rules_follow_grammar (names : Names) (line : Line) :
    (∀ k, (Rulebook.default.allowing names).kind? line = some k ↔ Accepts k line) ∧
    ((Rulebook.default.allowing names).kind? line = none ↔ ∀ k, ¬ Accepts k line) ∧
    (∀ rule ∈ table, ∀ other ∈ table, rule.2.occursIn line = true →
      other.2.occursIn line = true → rule = other ∨
        rule.1 ∈ underscoreFunctions ∧ other.1 ∈ underscoreFunctions) ∧
    ∀ rules, Ordering rules → (Rulebook.mk rules names).kind? line =
      (Rulebook.default.allowing names).kind? line := by
  have hkind (k : Kind) : (Rulebook.default.allowing names).kind? line = some k ↔ Accepts k line :=
    ordering_table.kind_iff names
  refine ⟨hkind, ?_, fun rule hrule other => rules_apart hrule, fun rules hrules => ?_⟩
  · simp only [← hkind, Option.eq_none_iff_forall_ne_some, ne_eq]
  · exact Option.ext fun k => (hrules.kind_iff names).trans (hkind k).symm

def functionsFirst : List (Kind × Pattern) :=
  [(.ready, member "func" (nameIs "_ready")), (.init, member "func" (nameIs "_init")),
   (.callback, member "func" (.char '_')), (.privateFunc, member "func" (.char '_'))] ++
    table.take 10 ++ [(.publicFunc, member "func" letter)]

theorem lateReady_accepted : Ordering functionsFirst ∧ Accepts .callback lateReady ∧
    (Rulebook.mk functionsFirst []).kind? lateReady = some .callback ∧
    (∃ rule ∈ table, ∃ other ∈ table, rule ≠ other ∧ rule.2.occursIn lateReady = true ∧
      other.2.occursIn lateReady = true ∧ rule.1 ∈ underscoreFunctions ∧
      other.1 ∈ underscoreFunctions) ∧
    ∀ k, ¬ Accepts k "toolbar.show()".toList := by
  have hordering : Ordering functionsFirst := ⟨by decide +kernel, by decide, by decide⟩
  have hkind : (Rulebook.default.allowing []).kind? lateReady = some .callback := by decide +kernel
  have hnone : (Rulebook.default.allowing []).kind? "toolbar.show()".toList = none := by
    decide +kernel
  obtain ⟨haccepts, -, hapart, horder⟩ := default_rules_follow_grammar [] lateReady
  obtain ⟨-, hnothing, -, -⟩ := default_rules_follow_grammar [] "toolbar.show()".toList
  have hcallback : (Kind.callback, member "func" (.char '_')) ∈ table := by decide +kernel
  have hprivate : (Kind.privateFunc, member "func" (.char '_')) ∈ table := by decide +kernel
  have hoccurs : (member "func" (.char '_')).occursIn lateReady = true := by decide +kernel
  have hfamily := (hapart _ hcallback _ hprivate hoccurs hoccurs).resolve_left (by decide)
  exact ⟨hordering, (haccepts .callback).mp hkind, (horder functionsFirst hordering).trans hkind,
    ⟨_, hcallback, _, hprivate, by decide, hoccurs, hoccurs, hfamily⟩, hnothing.mp hnone⟩

end ScriptOrder
