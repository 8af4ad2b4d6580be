import Mathlib.Data.List.Count
import Mathlib.Data.List.TakeWhile
import ScriptOrder.Proofs.Partition
import ScriptOrder.Proofs.Sheet

/-!
# Where the rows come from

A row of an arranged script comes from a line of the script or separates two
blocks. `places` lists the numbers of these lines in the order of the rows;
every line that is not blank is there once.
-/

set_option autoImplicit false

namespace ScriptOrder
open Marks

/-- The number of the line a row comes from; none for a separator. -/
abbrev Place := Option Nat

namespace Script

def rowAt (s : Script) : Place → Layout.Row := Option.map fun i => (s.line i, s.reading i)

def markAt (s : Script) (p : Place) : Mark := Layout.mark (s.rowAt p)

variable {s : Script}

theorem slice_lines (hs : s.Even) {i j : Nat} (hj : j ≤ s.length) :
    s.slice i j = (List.range' i (j - i)).map fun k => (s.line k, s.reading k) := by
  have hlen : s.lines.length = s.readings.length := hs
  have hstop : j ≤ s.readings.length := hj
  apply List.ext_getElem
  · simp only [slice, List.length_zip, List.length_take, List.length_drop, List.length_map,
      List.length_range']
    omega
  · intro n _ hn
    simp only [List.length_map, List.length_range'] at hn
    have hl : i + n < s.lines.length := by omega
    have hr : i + n < s.readings.length := by omega
    simp [slice, line, reading, hl, hr]

end Script

namespace Layout
open Script

def openingPlaces : Option (Nat × Nat) → List Place
  | none => []
  | some (start, stop) => (List.range' start (stop - start)).map some

def blockPlaces (s : Script) : Option Block → List Block → List Place
  | _, [] => []
  | previous, b :: bs =>
    (gap s previous b).map (fun _ => none) ++ b.lines.map some ++ blockPlaces s (some b) bs

def gluePlaces (s : Script) (ps : List Place) : List Place :=
  if (ps.takeWhile fun p => (s.markAt p).2.isComment).isEmpty then ps
  else (ps.takeWhile fun p => (s.markAt p).2.isComment) ++
    (ps.dropWhile fun p => (s.markAt p).2.isComment).dropWhile fun p => (s.markAt p).2.isBlank

def places (s : Script) (opening : Option (Nat × Nat)) (bs : List Block) : List Place :=
  gluePlaces s (openingPlaces opening ++ blockPlaces s none bs)

variable {s : Script}

theorem openingRows_places (hs : s.Even) (opening : Option (Nat × Nat))
    (h : ∀ span ∈ opening, span.2 ≤ s.length) :
    openingRows s opening = (openingPlaces opening).map s.rowAt := by
  cases opening with
  | none => rfl
  | some span =>
    have hstop : span.2 ≤ s.length := h span rfl
    simp [openingRows, openingPlaces, slice_lines hs hstop, rowAt]

theorem gap_places (s : Script) (previous : Option Block) (b : Block) :
    gap s previous b = ((gap s previous b).map fun _ => (none : Place)).map s.rowAt := by
  cases previous with
  | none => rfl
  | some a => by_cases h : needsGap s a b <;> simp [gap, h, rowAt]

theorem blockRows_places (hs : s.Even) (previous : Option Block) (bs : List Block)
    (h : ∀ b ∈ bs, b.stop ≤ s.length) :
    blockRows s previous bs = (blockPlaces s previous bs).map s.rowAt := by
  induction bs generalizing previous with
  | nil => rfl
  | cons b bs ih =>
    have hrows : (rows s b).map some = (b.lines.map some).map s.rowAt := by
      rw [rows, slice_lines hs (h b (by simp)), Block.lines, Block.length, List.map_map,
        List.map_map]
      rfl
    rw [blockRows, blockPlaces, ih (some b) fun c hc => h c (by simp [hc]), List.map_append,
      List.map_append, ← gap_places, ← hrows]

theorem glue_places (s : Script) (ps : List Place) :
    glue (ps.map s.rowAt) = (gluePlaces s ps).map s.rowAt := by
  have hc : (fun p => (s.markAt p).2.isComment) = isCommentRow ∘ s.rowAt :=
    funext fun p => (isCommentRow_mark _).symm
  have hb : (fun p => (s.markAt p).2.isBlank) = isBlankRow ∘ s.rowAt :=
    funext fun p => (isBlankRow_mark _).symm
  rw [glue, List.takeWhile_map, List.dropWhile_map, List.dropWhile_map, List.isEmpty_map,
    gluePlaces, hc, hb]
  split
  · rfl
  · rw [List.map_append]

theorem layout_places (hs : s.Even) {opening : Option (Nat × Nat)} {bs : List Block}
    (ho : ∀ span ∈ opening, span.2 ≤ s.length) (hb : ∀ b ∈ bs, b.stop ≤ s.length) :
    layout s opening bs = (places s opening bs).map s.rowAt := by
  rw [layout, openingRows_places hs opening ho, blockRows_places hs none bs hb, ← List.map_append,
    glue_places, places]

theorem count_lines (i start n : Nat) :
    ((List.range' start n).map some).count (some i) =
      if start ≤ i ∧ i < start + n then 1 else 0 := by
  rw [List.count_map_of_injective _ _ fun _ _ => Option.some_inj.mp, List.count_range_1']

theorem count_blockPlaces (s : Script) (i : Nat) (previous : Option Block) (bs : List Block) :
    (blockPlaces s previous bs).count (some i) = bs.countP fun b => b.Holds i := by
  induction bs generalizing previous with
  | nil => rfl
  | cons b bs ih =>
    have hgap : ((gap s previous b).map fun _ => (none : Place)).count (some i) = 0 := by
      apply List.count_eq_zero.mpr
      simp
    have hlines : (b.lines.map some).count (some i) = if b.Holds i then 1 else 0 := by
      rw [Block.lines, count_lines, Block.length]
      congr 1
      simp only [Block.Holds, eq_iff_iff]
      omega
    rw [blockPlaces, List.count_append, List.count_append, hgap, hlines, ih, List.countP_cons]
    simp [Nat.add_comm]

theorem gluePlaces_sublist (s : Script) (ps : List Place) : (gluePlaces s ps).Sublist ps := by
  rw [gluePlaces]
  split
  · exact List.Sublist.refl ps
  · have hrest := (List.Sublist.refl (ps.takeWhile fun p => (s.markAt p).2.isComment)).append
      (List.dropWhile_sublist (fun p => (s.markAt p).2.isBlank)
        (l := ps.dropWhile fun p => (s.markAt p).2.isComment))
    rwa [List.takeWhile_append_dropWhile] at hrest

theorem count_gluePlaces {i : Nat} (hr : s.reading i ≠ .blank) (ps : List Place) :
    (gluePlaces s ps).count (some i) = ps.count (some i) := by
  have hsplit (p : Place → Bool) (qs : List Place) :
      qs.count (some i) = (qs.takeWhile p).count (some i) + (qs.dropWhile p).count (some i) := by
    rw [← List.count_append, List.takeWhile_append_dropWhile]
  have hblank (qs : List Place) :
      (qs.takeWhile fun p => (s.markAt p).2.isBlank).count (some i) = 0 := by
    apply List.count_eq_zero.mpr
    intro hmem
    exact hr (by simpa [markAt, rowAt, mark] using List.mem_takeWhile_imp hmem)
  rw [gluePlaces]
  split
  · rfl
  · rw [List.count_append, hsplit (fun p => (s.markAt p).2.isComment) ps,
      hsplit (fun p => (s.markAt p).2.isBlank) (ps.dropWhile _), hblank, Nat.zero_add]

end Layout

namespace Arrange
open Layout

def places (s : Script) : List Place := Layout.places s (opening s) (Block.sort (blocks s))

theorem count_opening (sh : Sheet) (i : Nat) : (openingPlaces sh.span).count (some i) =
    if sh.before.length ≤ i ∧ i < sh.start then 1 else 0 := by
  by_cases ho : sh.opening = []
  · have hstart : sh.start = sh.before.length := by simp [Sheet.start, ho]
    rw [Sheet.span, if_pos ho, if_neg (by omega)]
    rfl
  · rw [Sheet.span, if_neg ho, openingPlaces, count_lines, Sheet.start, Nat.add_sub_cancel_left]

section

variable {s : Script} (hs : s.Even) {sh : Sheet} (h : s.marks = sh.marks)
include hs h

theorem partition_sheet : Scan.Partition s sh.start (blocks s) := by
  rw [sh.blocks_sheet hs h]
  exact Scan.partition_outline hs s.rules sh.outline (sh.drop_start h)

theorem opening_sheet : opening s = sh.span := by
  rw [opening, sh.find_readings hs h]

theorem start_le : sh.start ≤ s.length := by
  rw [← Script.marks_length hs, h, Sheet.marks, Sheet.start]
  simp only [List.length_append]
  omega

theorem span_within : ∀ span ∈ sh.span, span.2 ≤ s.length := by
  intro span hspan
  rw [Sheet.span] at hspan
  split at hspan
  · simp at hspan
  · obtain rfl := Option.some_inj.mp hspan
    exact start_le hs h

theorem arranged_places : sh.arranged s.rules = (places s).map s.markAt := by
  have hb : ∀ b ∈ Block.sort (blocks s), b.stop ≤ s.length := by
    intro b hb
    exact ((partition_sheet hs h).inside b ((Block.sort_perm _).mem_iff.mp hb)).2.2
  have ho : ∀ span ∈ opening s, span.2 ≤ s.length := by
    rw [opening_sheet hs h]
    exact span_within hs h
  rw [← sh.layout_sheet hs h, layout_places hs ho hb, List.map_map]
  rfl

theorem count_places {i : Nat} (hr : s.reading i ≠ .blank) : (places s).count (some i) = 1 := by
  have hp := partition_sheet hs h
  have hbefore : sh.before.length ≤ i := by
    by_contra hlt
    exact hr (Script.blank_within hs (i := 0) h sh.before_blank i (Nat.zero_le i) (by omega))
  rw [places, Layout.places, count_gluePlaces hr, List.count_append, opening_sheet hs h,
    count_opening sh, count_blockPlaces, (Block.sort_perm _).countP_eq]
  by_cases hi : sh.start ≤ i
  · rw [if_neg (by omega), hp.counted i hi hr]
  · have hnone : (blocks s).countP (fun b => b.Holds i) = 0 := by
      apply List.countP_eq_zero.mpr
      intro b hb
      have hle := (hp.inside b hb).1
      rw [decide_eq_true_eq]
      rintro ⟨hstart, -⟩
      omega
    rw [if_pos (by omega), hnone]

theorem place_lt {i : Nat} (hi : some i ∈ places s) : i < s.length := by
  have hp := partition_sheet hs h
  have hmem := (gluePlaces_sublist s _).subset hi
  rw [opening_sheet hs h, List.mem_append] at hmem
  rcases hmem with hmem | hmem
  · have hpos := List.count_pos_iff.mpr hmem
    rw [count_opening sh] at hpos
    have hstart : i < sh.start := by
      by_contra hge
      rw [if_neg (by omega)] at hpos
      omega
    exact Nat.lt_of_lt_of_le hstart (start_le hs h)
  · have hpos := List.count_pos_iff.mpr hmem
    rw [count_blockPlaces, List.countP_pos_iff] at hpos
    obtain ⟨b, hb, hholds⟩ := hpos
    have hstop := (hp.inside b ((Block.sort_perm _).mem_iff.mp hb)).2.2
    have hlt : b.Holds i := by simpa using hholds
    exact Nat.lt_of_lt_of_le hlt.2 hstop

end

end Arrange

end ScriptOrder
