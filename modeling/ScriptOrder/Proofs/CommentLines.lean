import Mathlib.Data.List.Basic
import ScriptOrder.Docstring
import ScriptOrder.Proofs.Enclosures
import ScriptOrder.Proofs.PlainLines

/-!
# The comment lines of a docstring

A docstring spans lines: the first begins with the triple quote, and no line but
the last leaves it. The lines put in its place are comments, there is always
one, and no break comes into them: the last triple quote is in the last line, so
the text after it is cut from that line alone.
-/

set_option autoImplicit false

namespace ScriptOrder
open CharClass

namespace Lines

theorem pieces_ne_nil (t : Text) : pieces t ≠ [] := by
  cases t with
  | nil => simp [pieces]
  | cons c rest =>
    rw [pieces]
    split
    · simp
    · split <;> simp

theorem pieces_plain (t : Text) (h : '\r' ∉ t) : ∀ l ∈ pieces t, Plain l := by
  induction t with
  | nil => simp [pieces, Plain]
  | cons c rest ih =>
    obtain ⟨hc, hrest⟩ := not_or.mp (mt List.mem_cons.mpr h)
    have hpieces := ih hrest
    rw [pieces]
    split
    · simpa [Plain] using hpieces
    · rename_i hbreak
      split
      · simp [Plain, Ne.symm hbreak, hc]
      · rename_i piece others heq
        rw [heq] at hpieces
        intro l hl
        rcases List.mem_cons.mp hl with rfl | hl
        · obtain ⟨hn, hr⟩ := hpieces piece (by simp)
          exact ⟨by simp [Ne.symm hbreak, hn], by simp [hc, hr]⟩
        · exact hpieces l (by simp [hl])

theorem joined_concat (init : List Line) (l : Line) : joined (init ++ [l]) = unlines init ++ l := by
  induction init with
  | nil => rfl
  | cons m init ih =>
    rw [List.cons_append, joined, ih]
    · simp [unlines]
    · simp

theorem joined_no_return {ls : List Line} (h : ∀ l ∈ ls, Plain l) : '\r' ∉ joined ls := by
  rcases List.eq_nil_or_concat ls with rfl | ⟨init, l, rfl⟩
  · simp [joined]
  · rw [List.concat_eq_append] at h ⊢
    rw [joined_concat, List.mem_append, not_or]
    exact ⟨unlines_no_return init fun m hm => h m (by simp [hm]), (h l (by simp)).2⟩

end Lines

namespace CharClass

theorem rest?_eq {word s after : List Char} (h : rest? word s = some after) : s = word ++ after := by
  induction word generalizing s with
  | nil => exact Option.some.inj h
  | cons w word ih =>
    cases s with
    | nil => simp [rest?] at h
    | cons c s =>
      rw [rest?] at h
      split at h
      · rename_i hc
        rw [List.cons_append, ← ih h, hc]
      · simp at h

end CharClass

namespace Docstring
open Reading

/-- The docstring that is open before the lines is left by the last of them at
the earliest. -/
def Stays : Enclosure → List Line → Enclosure → Prop
  | e, [], f => e = f
  | e, l :: ls, f => e = .inComment ∧ Stays (e.after l) ls f

/-- The lines are a docstring, ended if `f` is outside. -/
def Spans (unit : List Line) (f : Enclosure) : Prop := ∃ l ls, unit = l :: ls ∧
  startsString l = true ∧ Stays (Enclosure.outside.after l) ls f

section

variable {e f : Enclosure} {ls unit : List Line}

theorem Stays.concat (h : Stays e ls .inComment) (l : Line) :
    Stays e (ls ++ [l]) (Enclosure.inComment.after l) := by
  induction ls generalizing e with
  | nil =>
    obtain rfl : e = .inComment := h
    exact ⟨rfl, rfl⟩
  | cons m ls ih => exact ⟨h.1, ih h.2⟩

theorem Stays.afterAll (h : Stays e ls f) : e.afterAll ls = f := by
  induction ls generalizing e with
  | nil => exact h
  | cons l ls ih => exact ih h.2

theorem Stays.afterAll_left {ls ms : List Line} (h : Stays e (ls ++ ms) .inComment) :
    e.afterAll ls = .inComment := by
  induction ls generalizing e with
  | nil =>
    cases ms with
    | nil => exact h
    | cons m ms => exact h.1
  | cons l ls ih => exact ih h.2

theorem Stays.eq_nil (h : Stays .outside ls f) : ls = [] ∧ f = .outside := by
  cases ls with
  | nil => exact ⟨rfl, h.symm⟩
  | cons l ls => simp [Stays] at h

theorem Stays.exists_last (h : Stays .inComment ls .outside) : ∃ init l, ls = init ++ [l] ∧
    Quotes.leavesOpen true l = false := by
  induction ls with
  | nil => simp [Stays] at h
  | cons l ls ih =>
    obtain ⟨-, hrest⟩ := h
    rw [after_inComment] at hrest
    split at hrest
    · obtain ⟨init, last, rfl, hlast⟩ := ih hrest
      exact ⟨l :: init, last, rfl, hlast⟩
    · rename_i hopen
      cases ls with
      | nil => exact ⟨[], l, rfl, by simpa using hopen⟩
      | cons m ls => simp [Stays] at hrest

theorem spans_single {l : Line} (h : startsString l = true) : Spans [l] (Enclosure.outside.after l) :=
  ⟨l, [], rfl, h, rfl⟩

theorem Spans.concat (h : Spans unit .inComment) (l : Line) :
    Spans (unit ++ [l]) (Enclosure.inComment.after l) := by
  obtain ⟨m, ls, rfl, hm, hstays⟩ := h
  exact ⟨m, ls ++ [l], rfl, hm, hstays.concat l⟩

theorem Spans.afterAll (h : Spans unit f) : Enclosure.outside.afterAll unit = f := by
  obtain ⟨l, ls, rfl, -, hstays⟩ := h
  exact hstays.afterAll

end

theorem splitLast?_eq {s before after : List Char} (h : splitLast? s = some (before, after)) :
    s = before ++ (Quotes.triple ++ after) := by
  induction s generalizing before with
  | nil => simp [splitLast?] at h
  | cons c rest ih =>
    rw [splitLast?] at h
    split at h
    · rename_i front back hrest
      obtain ⟨rfl, rfl⟩ : c :: front = before ∧ back = after := by simpa using h
      rw [List.cons_append, ← ih hrest]
    · obtain ⟨back, hback, hpair⟩ := Option.map_eq_some_iff.mp h
      obtain ⟨rfl, rfl⟩ : [] = before ∧ back = after := by simpa using hpair
      rw [List.nil_append]
      exact rest?_eq hback

theorem splitLast?_append {s before after : List Char} (front : List Char)
    (h : splitLast? s = some (before, after)) :
    splitLast? (front ++ s) = some (front ++ before, after) := by
  induction front with
  | nil => exact h
  | cons c front ih => simp [splitLast?, ih]

theorem exists_splitLast {s : List Char} (h : Quotes.openIn .tripled s = false) :
    ∃ before after, splitLast? s = some (before, after) := by
  induction s with
  | nil => simp [Quotes.openIn] at h
  | cons c rest ih =>
    rw [splitLast?]
    split
    · exact ⟨_, _, rfl⟩
    · rename_i hnone
      by_cases hquote : startsString (c :: rest) = true
      · obtain ⟨after, hafter⟩ := Option.isSome_iff_exists.mp hquote
        exact ⟨[], after, by rw [hafter]; rfl⟩
      · have hskip : Quotes.openIn .tripled (c :: rest) = Quotes.openIn .tripled rest := by
          rw [Quotes.openIn]
          rintro tail rfl rfl
          exact hquote rfl
        obtain ⟨before, after, hsome⟩ := ih (hskip ▸ h)
        simp [hsome] at hnone

theorem Spans.exists_back {unit : List Line} (h : Spans unit .outside) : ∃ front back l,
    (Lines.joined unit).drop Quotes.triple.length = front ++ back ∧ l ∈ unit ∧ back ⊆ l ∧
      Quotes.openIn .tripled back = false := by
  obtain ⟨l, ls, rfl, hstart, hstays⟩ := h
  obtain ⟨rest, hrest⟩ := Option.isSome_iff_exists.mp hstart
  obtain rfl := rest?_eq hrest
  -- The first line may be the last one, and then its own triple quote is cut off it.
  cases ls with
  | nil =>
    refine ⟨[], rest, Quotes.triple ++ rest, rfl, by simp, by simp, ?_⟩
    by_contra hopen
    have hafter : Enclosure.outside.after (Quotes.triple ++ rest) = .inComment := by
      have hleaves : Quotes.leavesOpen false (Quotes.triple ++ rest) = true := by
        rw [Bool.not_eq_false] at hopen
        exact hopen
      rw [after_outside, if_pos hleaves, if_pos hstart]
    exact absurd (hafter.symm.trans hstays) (by simp)
  | cons m ls =>
    obtain ⟨init, last, hlast, hclosed⟩ := (hstays.1 ▸ hstays).exists_last
    refine ⟨rest ++ '\n' :: Lines.unlines init, last, last, ?_, by simp [hlast], by simp, hclosed⟩
    rw [hlast, Lines.joined, Lines.joined_concat]
    · simp [Quotes.triple]
    · simp

/-- The text between the quotes and the text after them. -/
theorem Spans.exists_parts {unit : List Line} (h : Spans unit .outside) : ∃ inner tail l,
    splitLast? ((Lines.joined unit).drop Quotes.triple.length) = some (inner, tail) ∧
      inner ⊆ Lines.joined unit ∧ l ∈ unit ∧ tail ⊆ l := by
  obtain ⟨front, back, l, hbody, hl, hback, hclosed⟩ := h.exists_back
  obtain ⟨before, tail, hsplit⟩ := exists_splitLast hclosed
  refine ⟨front ++ before, tail, l, by rw [hbody, splitLast?_append front hsplit], ?_, hl, ?_⟩
  · apply List.Subset.trans _ (List.drop_subset Quotes.triple.length (Lines.joined unit))
    rw [hbody, splitLast?_eq hsplit, ← List.append_assoc]
    exact List.subset_append_left _ _
  · apply List.Subset.trans _ hback
    rw [splitLast?_eq hsplit, ← List.append_assoc]
    exact List.subset_append_right _ _

theorem trimEnd_subset (s : List Char) : trimEnd s ⊆ s := by
  intro c hc
  exact List.mem_reverse.mp ((List.dropWhile_sublist _).subset (List.mem_reverse.mp hc))

theorem trim_subset (s : List Char) : trim s ⊆ s :=
  List.Subset.trans (trimEnd_subset _) (List.dropWhile_sublist _).subset

theorem commentLine_hash (text : List Char) : (commentLine text).head? = some '#' := by
  rw [commentLine]
  split <;> rfl

theorem commentLine_plain {text : List Char} (h : Lines.Plain text) :
    Lines.Plain (commentLine text) := by
  have hmem (c : Char) (hc : c ∈ commentLine text) : c = '#' ∨ c = ' ' ∨ c ∈ text := by
    rw [commentLine] at hc
    split at hc
    · exact Or.inl (List.mem_singleton.mp hc)
    · rename_i heq
      rcases List.mem_cons.mp hc with rfl | hc
      · exact Or.inl rfl
      · rcases List.mem_cons.mp hc with rfl | hc
        · exact Or.inr (Or.inl rfl)
        · exact Or.inr (Or.inr (trimEnd_subset text (heq ▸ hc)))
  constructor
  · intro hn
    rcases hmem _ hn with hn | hn | hn
    · exact absurd hn (by decide)
    · exact absurd hn (by decide)
    · exact h.1 hn
  · intro hr
    rcases hmem _ hr with hr | hr | hr
    · exact absurd hr (by decide)
    · exact absurd hr (by decide)
    · exact h.2 hr

theorem dropBlankLast_sublist (ls : List Line) : (dropBlankLast ls).Sublist ls := by
  rw [dropBlankLast]
  split
  · split
    · exact List.dropLast_sublist ls
    · exact List.Sublist.refl ls
  · exact List.Sublist.refl ls

theorem dropBlankLast_ne_nil {ls : List Line} (h : ls ≠ []) : dropBlankLast ls ≠ [] := by
  rw [dropBlankLast]
  split
  · split
    · rename_i hlong
      rw [Bool.and_eq_true, decide_eq_true_eq] at hlong
      rw [← List.length_pos_iff, List.length_dropLast]
      omega
    · exact h
  · exact h

theorem dropBlankFirst_sublist (ls : List Line) : (dropBlankFirst ls).Sublist ls := by
  rw [dropBlankFirst.eq_def]
  split
  · split
    · exact List.sublist_cons_self _ _
    · exact List.Sublist.refl _
  · exact List.Sublist.refl _

theorem dropBlankFirst_ne_nil {ls : List Line} (h : ls ≠ []) : dropBlankFirst ls ≠ [] := by
  rw [dropBlankFirst.eq_def]
  split
  · split <;> simp
  · exact h

theorem exists_text {unit : List Line} {inner tail : List Char} {l : Line}
    (hparts : (splitLast? ((Lines.joined unit).drop Quotes.triple.length)).getD
      ((Lines.joined unit).drop Quotes.triple.length, []) = (inner, tail))
    (h : l ∈ comments unit) :
    ∃ text, l = commentLine text ∧ (text ∈ Lines.pieces inner ∨ text = trim tail) := by
  rw [comments, hparts] at h
  rcases List.mem_append.mp h with h | h
  · obtain ⟨text, htext, rfl⟩ := List.mem_map.mp h
    have hmem := (dropBlankLast_sublist _).subset ((dropBlankFirst_sublist _).subset htext)
    exact ⟨text, rfl, Or.inl hmem⟩
  · split at h
    · simp at h
    · exact ⟨_, List.mem_singleton.mp h, Or.inr rfl⟩

theorem comments_hash (unit : List Line) : ∀ l ∈ comments unit, l.head? = some '#' := by
  intro l hl
  obtain ⟨text, rfl, -⟩ := exists_text rfl hl
  exact commentLine_hash text

theorem comments_ne_nil (unit : List Line) : comments unit ≠ [] := by
  rw [comments]
  apply List.append_ne_nil_of_left_ne_nil
  rw [Ne, List.map_eq_nil_iff]
  exact dropBlankFirst_ne_nil (dropBlankLast_ne_nil (Lines.pieces_ne_nil _))

theorem comments_plain {unit : List Line} (h : Spans unit .outside)
    (hplain : ∀ l ∈ unit, Lines.Plain l) : ∀ l ∈ comments unit, Lines.Plain l := by
  obtain ⟨inner, tail, last, hparts, hinner, hlast, htail⟩ := h.exists_parts
  intro l hl
  obtain ⟨text, rfl, htext | rfl⟩ := exists_text (by rw [hparts, Option.getD_some]) hl
  · have hreturn : '\r' ∉ inner := fun hr => Lines.joined_no_return hplain (hinner hr)
    exact commentLine_plain (Lines.pieces_plain inner hreturn text htext)
  · have hsubset : trim tail ⊆ last := List.Subset.trans (trim_subset tail) htail
    exact commentLine_plain
      ⟨fun hn => (hplain last hlast).1 (hsubset hn), fun hr => (hplain last hlast).2 (hsubset hr)⟩

theorem afterAll_hash {ls : List Line} (h : ∀ l ∈ ls, l.head? = some '#') :
    Enclosure.outside.afterAll ls = .outside := by
  induction ls with
  | nil => rfl
  | cons l ls ih =>
    have hopen : Quotes.leavesOpen false l = false := Quotes.openIn_hash l (h l (by simp))
    have hafter : Enclosure.outside.after l = .outside := by simp [after_outside, hopen]
    rw [Enclosure.afterAll, hafter]
    exact ih fun m hm => h m (by simp [hm])

end Docstring

end ScriptOrder
