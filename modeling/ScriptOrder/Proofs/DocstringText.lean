import Mathlib.Data.List.Basic
import Mathlib.Data.List.TakeWhile
import ScriptOrder.Proofs.Reconversion

/-!
# The text of a docstring

The comments in the place of a docstring hold its text: every character that is
not white space, in order. What is taken away is the triple quote that opens it and
the last one it holds. That one need not be the one that closes the string, since
comments and other strings on the last line may hold triple quotes too.
-/

set_option autoImplicit false

namespace ScriptOrder
open CharClass

namespace CharClass

/-- The characters that are not white space. -/
def ink (s : List Char) : List Char := s.filter fun c => !isBlank c

theorem ink_append (s t : List Char) : ink (s ++ t) = ink s ++ ink t := List.filter_append ..

theorem ink_eq_nil_iff (s : List Char) : ink s = [] ↔ isBlankLine s = true := by
  simp [ink, isBlankLine]

theorem ink_trimStart (s : List Char) : ink (trimStart s) = ink s := by
  have hblank : isBlankLine (s.takeWhile isBlank) = true := List.all_takeWhile
  conv_rhs => rw [← List.takeWhile_append_dropWhile (p := isBlank) (l := s), ink_append,
    (ink_eq_nil_iff _).mpr hblank]
  rfl

theorem ink_trimEnd (s : List Char) : ink (trimEnd s) = ink s := by
  have hreverse (u : List Char) : ink u.reverse = (ink u).reverse := List.filter_reverse ..
  have hstart : ink (s.reverse.dropWhile isBlank) = ink s.reverse := ink_trimStart s.reverse
  rw [trimEnd, hreverse, hstart, hreverse, List.reverse_reverse]

theorem ink_trim (s : List Char) : ink (trim s) = ink s := by
  rw [trim, ink_trimEnd, ink_trimStart]

theorem trim_eq_nil_iff (s : List Char) : trim s = [] ↔ isBlankLine s = true := by
  rw [← ink_eq_nil_iff, ← ink_trim]
  constructor
  · intro h
    rw [h]
    rfl
  · intro h
    rw [ink_trim, ink_eq_nil_iff, isBlankLine, List.all_eq_true] at h
    rw [trim, trimStart, List.dropWhile_eq_nil_iff.mpr h]
    rfl

theorem ink_flatMap_blank {ls : List Line} (h : ∀ l ∈ ls, isBlankLine l = true) :
    ls.flatMap ink = [] :=
  List.flatMap_eq_nil_iff.mpr fun l hl => (ink_eq_nil_iff l).mpr (h l hl)

end CharClass

namespace Lines

theorem ink_pieces (t : Text) : (pieces t).flatMap ink = ink t := by
  induction t with
  | nil => rfl
  | cons c rest ih =>
    rw [pieces]
    split
    · rename_i hbreak
      rw [List.flatMap_cons, ih, hbreak]
      rfl
    · split
      · rename_i hnil
        exact absurd hnil (pieces_ne_nil rest)
      · rename_i piece others heq
        have hcons (s : List Char) : ink (c :: s) = ink [c] ++ ink s := ink_append [c] s
        rw [heq, List.flatMap_cons] at ih
        rw [List.flatMap_cons, hcons piece, List.append_assoc, ih]
        exact (hcons rest).symm

end Lines

namespace Docstring
open Reading

def CutAtLast (s before after : List Char) : Prop := s = before ++ (Quotes.triple ++ after) ∧
  ∀ front back, s = front ++ (Quotes.triple ++ back) → front.length ≤ before.length

theorem exists_splitLast_triple (back : List Char) :
    ∃ before after, splitLast? (Quotes.triple ++ back) = some (before, after) := by
  rw [show Quotes.triple ++ back = '"' :: '"' :: '"' :: back from rfl, splitLast?]
  split
  · exact ⟨_, _, rfl⟩
  · exact ⟨[], back, by simp [Quotes.triple, rest?]⟩

theorem splitLast?_last {s before after front back : List Char}
    (h : splitLast? s = some (before, after)) (hs : s = front ++ (Quotes.triple ++ back)) :
    front.length ≤ before.length := by
  induction front generalizing s before with
  | nil => exact Nat.zero_le _
  | cons c front ih =>
    -- A triple quote stands in the rest, so the rest is cut and the first character stays before.
    subst hs
    rw [List.cons_append, splitLast?] at h
    split at h
    · rename_i first second hrest
      obtain ⟨rfl, rfl⟩ : c :: first = before ∧ second = after := by simpa using h
      exact Nat.succ_le_succ (ih hrest rfl)
    · rename_i hnone
      obtain ⟨first, second, hquotes⟩ := exists_splitLast_triple back
      rw [splitLast?_append front hquotes] at hnone
      simp at hnone

theorem Spans.exists_cut {unit : List Line} (h : Spans unit .outside) : ∃ inner tail,
    splitLast? ((Lines.joined unit).drop Quotes.triple.length) = some (inner, tail) ∧
      CutAtLast (Lines.joined unit) (Quotes.triple ++ inner) tail := by
  obtain ⟨inner, tail, -, hsplit, -⟩ := h.exists_parts
  have hopening : Lines.joined unit =
      Quotes.triple ++ (Lines.joined unit).drop Quotes.triple.length := by
    obtain ⟨l, ls, rfl, hstart, -⟩ := h
    obtain ⟨rest, hrest⟩ := Option.isSome_iff_exists.mp hstart
    rw [rest?_eq hrest]
    cases ls <;> rfl
  refine ⟨inner, tail, hsplit, ?_, ?_⟩
  · rw [List.append_assoc, ← splitLast?_eq hsplit]
    exact hopening
  · intro front back hfront
    rw [List.length_append]
    by_cases hlen : front.length ≤ Quotes.triple.length
    · exact Nat.le_add_right_of_le hlen
    · have hbody : (Lines.joined unit).drop Quotes.triple.length =
          front.drop Quotes.triple.length ++ (Quotes.triple ++ back) := by
        rw [hfront, List.drop_append_of_le_length (by omega)]
      have hle := splitLast?_last hsplit hbody
      rw [List.length_drop] at hle
      omega

theorem ink_commentLine (text : List Char) : ink ((commentLine text).drop 1) = ink text := by
  rw [← ink_trimEnd text, commentLine]
  split
  · rename_i hnil
    rw [hnil]
    rfl
  · rename_i c cs hsome
    rw [hsome]
    rfl

theorem exists_dropped_last (ls : List Line) : ∃ last, ls = dropBlankLast ls ++ last ∧
    last.length ≤ 1 ∧ ∀ l ∈ last, isBlankLine l = true := by
  rw [dropBlankLast]
  split
  · rename_i l hl
    split
    · rename_i hblank
      rw [Bool.and_eq_true] at hblank
      exact ⟨[l], (List.dropLast_append_getLast? l hl).symm, by simp, by simpa using hblank.2⟩
    · exact ⟨[], by simp⟩
  · exact ⟨[], by simp⟩

theorem exists_dropped_first (ls : List Line) : ∃ first, ls = first ++ dropBlankFirst ls ∧
    first.length ≤ 1 ∧ ∀ l ∈ first, isBlankLine l = true := by
  rw [dropBlankFirst.eq_def]
  split
  · rename_i l m ls
    split
    · rename_i hblank
      exact ⟨[l], rfl, by simp, by simpa using hblank⟩
    · exact ⟨[], by simp⟩
  · exact ⟨[], by simp⟩

/-- The comments hold the text of the docstring: `inner` is what stands between its
quotes and `tail` what follows them. -/
structure Carries (unit cs : List Line) (inner tail : List Char) : Prop where
  cut : CutAtLast (Lines.joined unit) (Quotes.triple ++ inner) tail
  hash : ∀ c ∈ cs, c.head? = some '#'
  text : (cs.flatMap fun c => ink (c.drop 1)) = ink (inner ++ tail)
  /-- No line is left out but a blank one at either end. -/
  lines : ∃ first kept last, Lines.pieces inner = first ++ (kept ++ last) ∧
    first.length ≤ 1 ∧ last.length ≤ 1 ∧ (∀ l ∈ first ++ last, isBlankLine l = true) ∧
    cs = kept.map commentLine ++ if isBlankLine tail then [] else [commentLine (trim tail)]

theorem ink_comments (kept : List Line) (tail : List Char) :
    ((kept.map commentLine ++ if isBlankLine tail then [] else [commentLine (trim tail)]).flatMap
      fun c => ink (c.drop 1)) = kept.flatMap ink ++ ink tail := by
  rw [List.flatMap_append, List.flatMap_map]
  simp only [ink_commentLine]
  split
  · rename_i hblank
    rw [(ink_eq_nil_iff tail).mpr hblank]
    rfl
  · rw [List.flatMap_singleton, ink_commentLine, ink_trim]

theorem carries_comments {unit : List Line} (h : Spans unit .outside) :
    ∃ inner tail, Carries unit (comments unit) inner tail := by
  obtain ⟨inner, tail, hsplit, hcut⟩ := h.exists_cut
  obtain ⟨last, hlast, hlastlen, hlastblank⟩ := exists_dropped_last (Lines.pieces inner)
  obtain ⟨first, hfirst, hfirstlen, hfirstblank⟩ :=
    exists_dropped_first (dropBlankLast (Lines.pieces inner))
  let kept := dropBlankFirst (dropBlankLast (Lines.pieces inner))
  have hpieces : Lines.pieces inner = first ++ (kept ++ last) := by
    rw [← List.append_assoc, ← hfirst]
    exact hlast
  have hcomments : comments unit =
      kept.map commentLine ++ if isBlankLine tail then [] else [commentLine (trim tail)] := by
    rw [comments, hsplit]
    simp only [Option.getD_some, List.isEmpty_iff, trim_eq_nil_iff]
    rfl
  have hink : kept.flatMap ink = ink inner := by
    rw [← Lines.ink_pieces inner, hpieces, List.flatMap_append, List.flatMap_append,
      ink_flatMap_blank hfirstblank, ink_flatMap_blank hlastblank, List.nil_append, List.append_nil]
  refine ⟨inner, tail, hcut, comments_hash unit, ?_, first, kept, last, hpieces, hfirstlen, hlastlen,
    ?_, hcomments⟩
  · rw [hcomments, ink_comments, hink, ink_append]
  · exact List.forall_mem_append.mpr ⟨hfirstblank, hlastblank⟩

variable {t : Text} {before unit after : List Line}

theorem convertLines_unit (hbefore : Enclosure.outside.afterAll before = .outside)
    (hunit : Spans unit .outside) : convertLines (before ++ (unit ++ after)) =
      convertLines before ++ (comments unit ++ convertLines after) := by
  have hcut := convertFrom_append (e := .outside) (by simp) hbefore (by simp) (unit ++ after)
  rw [convertFrom_append (by simp) hunit.afterAll (by simp), convertFrom_spans hunit, if_pos rfl] at hcut
  exact hcut

/-- Every docstring that ends is converted on its own, between what stands before
and after it, and the comments in its place hold its text. -/
theorem docstring_text_kept (ht : Lines.lines (Lines.unify t) = before ++ (unit ++ after))
    (hbefore : Enclosure.outside.afterAll before = .outside) (hunit : Spans unit .outside) :
    Lines.lines (Lines.unify (convert t)) =
      convertLines before ++ (comments unit ++ convertLines after) ∧
    ∃ inner tail, Carries unit (comments unit) inner tail := by
  have hbreak : Lines.unify t ≠ ['\n'] := by
    intro hone
    obtain ⟨l, ls, rfl, hstart, -⟩ := hunit
    have hmem : l ∈ Lines.lines (Lines.unify t) := by simp [ht]
    rw [hone, show Lines.lines ['\n'] = [[]] from rfl, List.mem_singleton] at hmem
    simp [hmem, startsString, startsWith, Quotes.triple, rest?] at hstart
  constructor
  · rw [lines_convert hbreak, ht, convertLines_unit hbefore hunit]
  · exact carries_comments hunit

def speechScript : Text := "var a\n\"\"\"\n\"Go,\"\nhe said.\"\"\"\" # \"\"\" !\nvar b\n".toList

theorem speechScript_kept :
    Lines.lines (Lines.unify (convert speechScript)) =
      ["var a".toList, "# \"Go,\"".toList, "# he said.\"\"\"\" #".toList, "# !".toList,
        "var b".toList] ∧
    ∃ inner tail, Carries ["\"\"\"".toList, "\"Go,\"".toList, "he said.\"\"\"\" # \"\"\" !".toList]
      ["# \"Go,\"".toList, "# he said.\"\"\"\" #".toList, "# !".toList] inner tail := by
  have hlines : Lines.lines (Lines.unify speechScript) = ["var a".toList] ++
      (["\"\"\"".toList, "\"Go,\"".toList, "he said.\"\"\"\" # \"\"\" !".toList] ++
        ["var b".toList]) := by decide
  have hunit : Spans ["\"\"\"".toList, "\"Go,\"".toList, "he said.\"\"\"\" # \"\"\" !".toList]
      .outside := by
    refine ⟨_, _, rfl, by decide, ?_⟩
    simp only [Stays]
    decide
  obtain ⟨hconvert, hcarries⟩ := docstring_text_kept hlines (by decide) hunit
  exact ⟨hconvert.trans (by decide), hcarries⟩

end Docstring

end ScriptOrder
