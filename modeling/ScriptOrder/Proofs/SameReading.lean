import Mathlib.Data.List.Basic
import ScriptOrder.Proofs.Places
import ScriptOrder.Proofs.SectionOrder

/-!
# Lines keep their readings

No string is open where a block or the opening comment begins or ends. So
what moves is read in its new place from the same string state as before, and
each line keeps its reading and stays inside or outside the strings it was in.
-/

set_option autoImplicit false

namespace ScriptOrder
open Marks Reading

namespace Script

def enclosure (s : Script) (i : Nat) : Enclosure := Enclosure.outside.afterAll (s.lines.take i)

def enclosureAt (s : Script) : Place → Enclosure
  | none => .outside
  | some i => s.enclosure i

/-- Read from one string state to another, the lines at the places are in the
strings they are in in the script. -/
def Follows (s : Script) : Enclosure → List Place → Enclosure → Prop
  | e, [], f => e = f
  | e, p :: ps, f => e = s.enclosureAt p ∧ s.Follows (e.after (s.markAt p).1) ps f

variable {s : Script} {e f g : Enclosure} {ps qs : List Place} {i : Nat}

theorem follows_append : s.Follows e (ps ++ qs) g ↔ ∃ f, s.Follows e ps f ∧ s.Follows f qs g := by
  induction ps generalizing e with
  | nil => simp [Follows]
  | cons p ps ih => simp [Follows, ih, and_assoc]

theorem Follows.enclosure (h : s.Follows e ps f) {n : Nat} {p : Place} (hp : ps[n]? = some p) :
    e.afterAll ((ps.take n).map fun q => (s.markAt q).1) = s.enclosureAt p := by
  induction ps generalizing e n with
  | nil => simp at hp
  | cons q ps ih =>
    cases n with
    | zero =>
      obtain rfl : q = p := by simpa using hp
      exact h.1
    | succ n => exact ih h.2 (by simpa using hp)

theorem enclosure_succ (h : i < s.lines.length) :
    s.enclosure (i + 1) = (s.enclosure i).after (s.line i) := by
  have hline : s.line i = s.lines[i] := by simp [line, h]
  rw [enclosure, List.take_add_one, List.getElem?_eq_getElem h, Enclosure.afterAll_append, hline]
  rfl

theorem follows_range (n : Nat) (h : i + n ≤ s.lines.length) :
    s.Follows (s.enclosure i) ((List.range' i n).map some) (s.enclosure (i + n)) := by
  induction n generalizing i with
  | zero => rfl
  | succ n ih =>
    rw [List.range'_succ, List.map_cons]
    have hline : (s.markAt (some i)).1 = s.line i := rfl
    have hrest := ih (i := i + 1) (by omega)
    rw [enclosure_succ (by omega), Nat.add_right_comm, Nat.add_assoc] at hrest
    exact ⟨rfl, hline ▸ hrest⟩

structure Sealed (s : Script) (b : Block) : Prop where
  begins : s.enclosure b.start = .outside
  ends : s.enclosure b.stop = .outside

end Script

namespace Layout
open Script

variable {s : Script} {e f : Enclosure}

theorem follows_opening (hs : s.Even) (opening : Option (Nat × Nat))
    (h : ∀ span ∈ opening, span.1 ≤ span.2 ∧ span.2 ≤ s.length ∧
      s.enclosure span.1 = .outside ∧ s.enclosure span.2 = .outside) :
    s.Follows .outside (openingPlaces opening) .outside := by
  cases opening with
  | none => rfl
  | some span =>
    obtain ⟨hle, hstop, hbegin, hend⟩ := h span rfl
    have hlen : s.lines.length = s.length := hs
    have hrange := follows_range (s := s) (i := span.1) (span.2 - span.1) (by omega)
    rw [Nat.add_sub_cancel' hle, hbegin, hend] at hrange
    exact hrange

theorem follows_gap (s : Script) (previous : Option Block) (b : Block) :
    s.Follows .outside ((gap s previous b).map fun _ => (none : Place)) .outside := by
  cases previous with
  | none => rfl
  | some a =>
    rw [gap]
    split
    · exact ⟨rfl, rfl⟩
    · rfl

theorem follows_blocks (hs : s.Even) {bs : List Block} (hwithin : ∀ b ∈ bs, b.start ≤ b.stop ∧
    b.stop ≤ s.length) (hsealed : ∀ b ∈ bs, s.Sealed b) (previous : Option Block) :
    s.Follows .outside (blockPlaces s previous bs) .outside := by
  induction bs generalizing previous with
  | nil => rfl
  | cons b bs ih =>
    have hlen : s.lines.length = s.length := hs
    obtain ⟨hle, hstop⟩ := hwithin b (by simp)
    have hrange := follows_range (s := s) (i := b.start) b.length (by rw [Block.length]; omega)
    have hend : b.start + b.length = b.stop := by rw [Block.length]; omega
    rw [hend, (hsealed b (by simp)).begins, (hsealed b (by simp)).ends] at hrange
    have hrest := ih (fun c hc => hwithin c (by simp [hc])) (fun c hc => hsealed c (by simp [hc]))
      (some b)
    rw [blockPlaces, follows_append]
    refine ⟨.outside, follows_append.mpr ⟨.outside, follows_gap s previous b, hrange⟩, hrest⟩

theorem Follows.dropBlanks (hblank : ∀ p, (s.markAt p).2 = .blank →
      (s.enclosureAt p).after (s.markAt p).1 = s.enclosureAt p) {ps : List Place}
    (h : s.Follows e ps f) : s.Follows e (ps.dropWhile fun p => (s.markAt p).2.isBlank) f := by
  induction ps generalizing e with
  | nil => exact h
  | cons p ps ih =>
    rw [List.dropWhile_cons]
    split
    · rename_i hp
      have hstep := h.2
      rw [h.1, hblank p (by simpa using hp), ← h.1] at hstep
      exact ih hstep
    · exact h

theorem follows_glue (hblank : ∀ p, (s.markAt p).2 = .blank →
      (s.enclosureAt p).after (s.markAt p).1 = s.enclosureAt p) {ps : List Place}
    (h : s.Follows e ps f) : s.Follows e (gluePlaces s ps) f := by
  rw [gluePlaces]
  split
  · exact h
  · rw [← List.takeWhile_append_dropWhile (p := fun p => (s.markAt p).2.isComment) (l := ps),
      follows_append] at h
    obtain ⟨d, hrun, hrest⟩ := h
    exact follows_append.mpr ⟨d, hrun, Follows.dropBlanks hblank hrest⟩

end Layout

namespace Script

variable {s : Script}

theorem enclosure_after (hs : s.Even) {ms ns : List Mark} (h : s.marks = ms ++ ns)
    {e : Enclosure} (hm : Reads s.rules .outside ms e) {i : Nat} (hi : i = ms.length) :
    s.enclosure i = e := by
  have hlen : i = (ms.map Prod.fst).length := by rw [hi, List.length_map]
  rw [enclosure, ← marks_lines hs, h, List.map_append, hlen, List.take_left]
  exact hm.afterAll

section

variable (hs : s.Even) (hc : Closed s.rules s.marks)
include hs hc

theorem blank_outside (i : Nat) (h : s.reading i = .blank) :
    s.enclosure i = .outside ∧ (s.enclosure i).after (s.line i) = .outside := by
  by_cases hi : i < s.length
  · have hlen := marks_length hs
    have hmark : s.marks.drop i = s.marks[i] :: s.marks.drop (i + 1) :=
      List.drop_eq_getElem_cons (by omega)
    obtain ⟨hline, hreading⟩ := mark_of_drop hs hmark
    have hsplit : s.marks = s.marks.take i ++ s.marks[i] :: s.marks.drop (i + 1) := by
      rw [← hmark, List.take_append_drop]
    rw [hsplit] at hc
    obtain ⟨e, hbefore, hread, -⟩ := reads_append.mp hc
    have henclosure : s.enclosure i = e :=
      enclosure_after hs hsplit hbefore (by rw [List.length_take, Nat.min_eq_left (by omega)])
    rw [← hline, ← hreading, h] at hread
    rw [henclosure]
    exact ⟨(blank_of_inside hread).1, after_blank hread⟩
  · have hlines : s.lines.length = s.length := hs
    have hend : s.enclosure i = .outside := by
      rw [enclosure, List.take_of_length_le (by omega), ← marks_lines hs]
      exact hc.afterAll
    have hline : s.line i = [] := by
      have hnone : s.lines[i]? = none := List.getElem?_eq_none (by omega)
      simp [line, hnone]
    rw [hend, hline]
    exact ⟨rfl, rfl⟩

theorem blank_place (p : Place) (h : (s.markAt p).2 = .blank) :
    (s.enclosureAt p).after (s.markAt p).1 = s.enclosureAt p := by
  cases p with
  | none => rfl
  | some i =>
    obtain ⟨hbefore, hafter⟩ := blank_outside hs hc i h
    exact hafter.trans hbefore.symm

end

end Script

namespace Arrange
open Script Outline

section

variable {s : Script} (hs : s.Even) {sh : Sheet} (h : s.marks = sh.marks)
  (hc : Closed s.rules s.marks)
include hs h hc

omit hs in
theorem closed_front : Closed s.rules (sh.before ++ sh.opening) := by
  rw [h] at hc
  exact (hc.blanks_left sh.before_blank).append (sh.closed_parts hc).1

theorem outside_within {ms ns : List Mark} (hsplit : sh.outline.marks = ms ++ ns)
    (hm : Closed s.rules ms) {i : Nat} (hi : i = sh.start + ms.length) :
    s.enclosure i = .outside := by
  have hall : s.marks = ((sh.before ++ sh.opening) ++ ms) ++ ns := by
    rw [h, Sheet.marks, hsplit]
    simp
  apply enclosure_after hs hall ((closed_front h hc).append hm)
  rw [hi, Sheet.start]
  simp [Nat.add_assoc]

omit hs in
theorem closed_outline_sections : (∀ t ∈ sh.outline.sections, Closed s.rules t.marks) ∧
    Closed s.rules (sh.outline.gap ++ (sh.outline.tail ++ sh.outline.after)) := by
  rw [h] at hc
  exact closed_sections sh.outline.attached sh.outline.tail_uncoded (sh.closed_parts hc).2

theorem sealed_section {before after : List Section} {t : Section}
    (hsections : sh.outline.sections = before ++ t :: after) :
    s.Sealed (t.blockAt s.rules (sh.start + (before.flatMap Section.marks).length)) := by
  obtain ⟨hclosed, -⟩ := closed_outline_sections h hc
  rw [hsections] at hclosed
  have hbefore : Closed s.rules (before.flatMap Section.marks) :=
    closed_flatMap fun u hu => hclosed u (by simp [hu])
  have ht : Closed s.rules t.marks := hclosed t (by simp)
  have hgap : Closed s.rules t.gap := ht.blanks_left t.gap_blank
  constructor
  · have hsplit : sh.outline.marks = (before.flatMap Section.marks ++ t.gap) ++ (t.rows ++
        (after.flatMap Section.marks ++
          (sh.outline.gap ++ (sh.outline.tail ++ sh.outline.after)))) := by
      simp [Outline.marks, hsections, Section.marks]
    exact outside_within hs h hc hsplit (hbefore.append hgap)
      (by simp [Section.blockAt, Nat.add_assoc])
  · have hsplit : sh.outline.marks = (before.flatMap Section.marks ++ t.marks) ++
        (after.flatMap Section.marks ++
          (sh.outline.gap ++ (sh.outline.tail ++ sh.outline.after))) := by
      simp [Outline.marks, hsections]
    exact outside_within hs h hc hsplit (hbefore.append ht)
      (by simp [Section.blockAt, Nat.add_assoc])

theorem sealed_tail : ∀ b ∈ tailBlocks (sh.start +
      (sh.outline.sections.flatMap Section.marks).length + sh.outline.gap.length) sh.outline.tail,
    s.Sealed b := by
  obtain ⟨hclosed, hrest⟩ := closed_outline_sections h hc
  have hgap : Closed s.rules (sh.outline.sections.flatMap Section.marks ++ sh.outline.gap) :=
    (closed_flatMap hclosed).append (hrest.blanks_left sh.outline.gap_blank)
  obtain ⟨f, htail, hafter⟩ := reads_append.mp (hrest.of_blanks sh.outline.gap_blank)
  obtain rfl := hafter.blanks sh.outline.after_blank
  intro b hb
  rw [mem_tailBlocks hb]
  constructor
  · have hsplit : sh.outline.marks = (sh.outline.sections.flatMap Section.marks ++
        sh.outline.gap) ++ (sh.outline.tail ++ sh.outline.after) := by simp [Outline.marks]
    exact outside_within hs h hc hsplit hgap (by simp [Nat.add_assoc])
  · have hsplit : sh.outline.marks = ((sh.outline.sections.flatMap Section.marks ++
        sh.outline.gap) ++ sh.outline.tail) ++ sh.outline.after := by simp [Outline.marks]
    exact outside_within hs h hc hsplit (hgap.append htail) (by simp [Nat.add_assoc])

theorem blocks_sealed : ∀ b ∈ blocks s, s.Sealed b := by
  intro b hb
  rw [sh.blocks_sheet hs h, Outline.blocks, Scan.blocksOf_eq] at hb
  rcases List.mem_append.mp hb with hb | hb
  · obtain ⟨before, t, after, hsections, rfl⟩ := Scan.exists_section_of_mem hb
    exact sealed_section hs h hc hsections
  · exact sealed_tail hs h hc b hb

theorem opening_sealed : ∀ span ∈ sh.span, span.1 ≤ span.2 ∧ span.2 ≤ s.length ∧
    s.enclosure span.1 = .outside ∧ s.enclosure span.2 = .outside := by
  intro span hspan
  have hwithin := span_within hs h span hspan
  rw [Sheet.span] at hspan
  split at hspan
  · simp at hspan
  · obtain rfl := Option.some_inj.mp hspan
    have hbefore : Closed s.rules sh.before := by
      rw [h] at hc
      exact hc.blanks_left sh.before_blank
    have hfront : s.marks = (sh.before ++ sh.opening) ++ sh.outline.marks := by
      rw [h, Sheet.marks, List.append_assoc]
    refine ⟨by simp [Sheet.start], hwithin, ?_, ?_⟩
    · exact enclosure_after hs h hbefore rfl
    · exact enclosure_after hs hfront (closed_front h hc) (by simp [Sheet.start])

theorem follows_places : s.Follows .outside (places s) .outside := by
  have hp := partition_sheet hs h
  have hwithin : ∀ b ∈ Block.sort (blocks s), b.start ≤ b.stop ∧ b.stop ≤ s.length := by
    intro b hb
    obtain ⟨-, hlt, hstop⟩ := hp.inside b ((Block.sort_perm _).mem_iff.mp hb)
    exact ⟨Nat.le_of_lt hlt, hstop⟩
  have hsealed : ∀ b ∈ Block.sort (blocks s), s.Sealed b := by
    intro b hb
    exact blocks_sealed hs h hc b ((Block.sort_perm _).mem_iff.mp hb)
  have hopening := Layout.follows_opening hs sh.span (opening_sealed hs h hc)
  have hblocks := Layout.follows_blocks hs hwithin hsealed none
  rw [places, opening_sheet hs h, Layout.places]
  exact Layout.follows_glue (blank_place hs hc) (follows_append.mpr ⟨_, hopening, hblocks⟩)

end

variable {rules : Rulebook} {t : Text}

/-- If every string of a script ends, each line of the arranged script has the
reading it had where it comes from, and is inside or outside the same string;
separators are blank, and again every string ends. -/
theorem lines_keep_readings (h : Terminated t) :
    let s := Script.ofText rules t
    let u := Script.ofText rules (arrange rules t).text
    Terminated (arrange rules t).text ∧ u.length = (places s).length ∧
    (∀ i, s.reading i ≠ .blank → (places s).count (some i) = 1) ∧
    (∀ n i, (places s)[n]? = some (some i) → i < s.length ∧
      u.line n = s.line i ∧ u.reading n = s.reading i ∧ u.enclosure n = s.enclosure i) ∧
    ∀ n, (places s)[n]? = some none →
      u.line n = [] ∧ u.reading n = .blank ∧ u.enclosure n = .outside := by
  intro s u
  have hs : s.Even := ofLines_even rules _
  have hu : u.Even := ofLines_even rules _
  have hc : Closed s.rules s.marks := closed_marks h
  obtain ⟨sh, hsh⟩ := Sheet.exists_sheet s.marks
  have hmarks : u.marks = (places s).map s.markAt :=
    (marks_arranged h sh hsh.symm).trans (arranged_places hs hsh.symm)
  have hfollows := follows_places hs hsh.symm hc
  have hrow (n : Nat) (p : Place) (hp : (places s)[n]? = some p) :
      u.line n = (s.markAt p).1 ∧ u.reading n = (s.markAt p).2 ∧
        u.enclosure n = s.enclosureAt p := by
    obtain ⟨hn, hget⟩ := List.getElem?_eq_some_iff.mp hp
    have hdrop : u.marks.drop n = s.markAt p :: ((places s).drop (n + 1)).map s.markAt := by
      rw [hmarks, ← List.map_drop, List.drop_eq_getElem_cons hn, hget, List.map_cons]
    obtain ⟨hline, hreading⟩ := mark_of_drop hu hdrop
    have hlines : u.lines.take n = ((places s).take n).map fun q => (s.markAt q).1 := by
      rw [← marks_lines hu, hmarks, List.map_map, ← List.map_take]
      rfl
    refine ⟨hline, hreading, ?_⟩
    rw [enclosure, hlines]
    exact hfollows.enclosure hp
  refine ⟨terminated_arranged h, ?_, ?_, ?_, ?_⟩
  · rw [← marks_length hu, hmarks, List.length_map]
  · intro i hr
    exact count_places hs hsh.symm hr
  · intro n i hn
    exact ⟨place_lt hs hsh.symm (List.mem_of_getElem? hn), hrow n (some i) hn⟩
  · intro n hn
    exact hrow n none hn

theorem mixedScript_places : places (Script.ofText .default mixedScript) =
    [some 2, some 3, some 4, none, some 0, some 1, none, some 5, some 6] := by
  have hopening : opening (Script.ofText .default mixedScript) = none := by decide
  have hblocks : blocks (Script.ofText .default mixedScript) =
      [⟨0, 2, .publicFunc⟩, ⟨2, 5, .publicVar⟩, ⟨5, 7, .publicFunc⟩] := by decide
  have hsort : Block.sort [⟨0, 2, .publicFunc⟩, ⟨2, 5, .publicVar⟩, ⟨5, 7, .publicFunc⟩] =
      [⟨2, 5, .publicVar⟩, ⟨0, 2, .publicFunc⟩, ⟨5, 7, .publicFunc⟩] := by
    simp [Block.sort, Block.comesBefore, Kind.rank, List.mergeSort,
      List.MergeSort.Internal.splitInTwo]
  rw [places, hopening, hblocks, hsort]
  decide

theorem mixedScript_keeps_readings : Terminated mixedScript ∧
    places (Script.ofText .default mixedScript) =
      [some 2, some 3, some 4, none, some 0, some 1, none, some 5, some 6] ∧
    let u := Script.ofText .default (arrange .default mixedScript).text
    u.line 1 = "var c".toList ∧ u.reading 1 = .code ∧ u.enclosure 1 = .inLiteral := by
  have hterm : Terminated mixedScript := by
    rw [Terminated]
    decide
  obtain ⟨-, -, -, hlines, -⟩ := @lines_keep_readings .default mixedScript hterm
  obtain ⟨-, hline, hreading, henclosure⟩ := hlines 1 3 (by rw [mixedScript_places]; rfl)
  refine ⟨hterm, mixedScript_places, ?_, ?_, ?_⟩
  · rw [hline]
    decide
  · rw [hreading]
    decide
  · rw [henclosure]
    decide

end Arrange

end ScriptOrder
