import Mathlib.Data.List.Basic
import ScriptOrder.Proofs.Partition
import ScriptOrder.Proofs.SectionOrder

/-!
# The block a line belongs to

A line joins the block of a declaration for one of four reasons: it is the
declaration, it stands before the first one, it is a comment that leads to
the declaration, or it stands in the body. What no declaration claims is
loose. The reasons exclude each other, so they decide the block of each line.
-/

set_option autoImplicit false

namespace ScriptOrder
open Marks

namespace Script

def Declares (s : Script) (i : Nat) : Prop := ∃ kind, s.reading i = .declaration kind

def FirstFrom (s : Script) (start d : Nat) : Prop :=
  start ≤ d ∧ s.Declares d ∧ ∀ j, start ≤ j → j < d → ¬ s.Declares j

def NextAfter (s : Script) (i d : Nat) : Prop := s.FirstFrom (i + 1) d

def LastBefore (s : Script) (start i d : Nat) : Prop :=
  start ≤ d ∧ d < i ∧ s.Declares d ∧ ∀ j, d < j → j < i → ¬ s.Declares j

/-- Line `d` is the first line after line `i` that is neither comment nor
blank, and it is a declaration. -/
def LeadsTo (s : Script) (i d : Nat) : Prop :=
  i < d ∧ s.Declares d ∧ ∀ j, i < j → j < d → s.reading j = .comment ∨ s.reading j = .blank

def EndsAfter (s : Script) (i : Nat) : Prop :=
  ∀ j, i < j → s.reading j = .comment ∨ s.reading j = .blank

variable {s : Script} {start i d e : Nat}

theorem not_declares (h : ∀ kind, s.reading i ≠ .declaration kind) : ¬ s.Declares i :=
  fun ⟨kind, hr⟩ => h kind hr

theorem Declares.unnoted (h : s.Declares i) : ¬ (s.reading i = .comment ∨ s.reading i = .blank) := by
  obtain ⟨kind, hr⟩ := h
  simp [hr]

theorem Declares.isSolid (h : s.Declares i) : (s.reading i).isSolid = true := by
  rw [isSolid_iff]
  exact not_or.mp h.unnoted

theorem FirstFrom.unique (hd : s.FirstFrom start d) (he : s.FirstFrom start e) : d = e := by
  rcases Nat.lt_trichotomy d e with h | h | h
  · exact absurd hd.2.1 (he.2.2 d hd.1 h)
  · exact h
  · exact absurd he.2.1 (hd.2.2 e he.1 h)

theorem LastBefore.unique (hd : s.LastBefore start i d) (he : s.LastBefore start i e) : d = e := by
  rcases Nat.lt_trichotomy d e with h | h | h
  · exact absurd he.2.2.1 (hd.2.2.2 e h he.2.1)
  · exact h
  · exact absurd hd.2.2.1 (he.2.2.2 d h hd.2.1)

theorem LeadsTo.nextAfter (h : s.LeadsTo i d) : s.NextAfter i d :=
  ⟨h.1, h.2.1, fun j hi hj hdecl => hdecl.unnoted (h.2.2 j hi hj)⟩

theorem LeadsTo.le_of_solid (h : s.LeadsTo i d) (hi : i < e) (he : (s.reading e).isSolid = true) :
    d ≤ e := by
  by_contra hlt
  rw [isSolid_iff] at he
  rcases h.2.2 e hi (by omega) with hr | hr
  · exact he.1 hr
  · exact he.2 hr

theorem EndsAfter.le_of_solid (h : s.EndsAfter i) (he : (s.reading e).isSolid = true) : e ≤ i := by
  by_contra hlt
  rw [isSolid_iff] at he
  rcases h e (by omega) with hr | hr
  · exact he.1 hr
  · exact he.2 hr

end Script

namespace Scan
open Script Outline

/-- Why line `i` is in block `b`. -/
inductive Joins (s : Script) (start : Nat) (b : Block) (i : Nat) : Prop
  | heads (kind : Kind) : s.reading i = .declaration kind →
      b.kind = s.rules.settle kind (s.line i) → Joins s start b i
  | precedes (d : Nat) : b.Holds d → s.FirstFrom start d → i < d → Joins s start b i
  | leads (d : Nat) : b.Holds d → s.reading i = .comment → s.LeadsTo i d → Joins s start b i
  /-- The body goes on to a line `k` that is neither comment nor blank. -/
  | follows (d k : Nat) : b.Holds d → s.LastBefore start i d → i ≤ k →
      (s.reading k).isSolid = true → (∀ j, i ≤ j → j ≤ k → ¬ s.Declares j) → Joins s start b i
  | loose : s.heads b = [] → (∀ d, start ≤ d → ¬ s.Declares d) ∨
      s.reading i = .comment ∧ s.EndsAfter i → Joins s start b i

variable {s : Script} {start i : Nat}

theorem section_holds (rules : Rulebook) (t : Section) (k : Nat) :
    (t.blockAt rules k).Holds (t.headAt k) := by
  have hlen : t.marks.length = t.gap.length + (t.lead.length + (t.body.length + 1)) := by
    simp [Section.marks, Section.rows]
  simp only [Block.Holds, Section.blockAt, Section.headAt]
  omega

section Place

variable (hs : s.Even) {k : Nat} {t : Section} {rest : List Mark}
  (h : s.marks.drop k = t.marks ++ rest)
include hs h

omit hs in
theorem section_before : s.marks.drop k = (t.gap ++ t.lead) ++ (t.head :: (t.body ++ rest)) := by
  simpa [Section.marks, Section.rows] using h

omit hs in
theorem section_head : s.marks.drop (t.headAt k) = t.head :: (t.body ++ rest) := by
  rw [Section.headAt, ← List.length_append]
  exact drop_append (section_before h)

omit hs in
theorem section_body : s.marks.drop (t.headAt k + 1) = t.body ++ rest :=
  drop_cons (section_head h)

theorem section_declares : s.reading (t.headAt k) = .declaration t.kind ∧
    s.line (t.headAt k) = t.line := by
  obtain ⟨hline, hreading⟩ := mark_of_drop hs (section_head h)
  exact ⟨hreading, hline⟩

theorem joins_head : Joins s start (t.blockAt s.rules k) (t.headAt k) := by
  obtain ⟨hreading, hline⟩ := section_declares hs h
  exact Joins.heads t.kind hreading (by rw [hline]; rfl)

theorem section_first (hk : start = k) : s.FirstFrom start (t.headAt start) := by
  subst hk
  have hu : Undeclared (t.gap ++ t.lead) :=
    (undeclared_append _ _).mpr ⟨t.gap_blank.notes.undeclared, t.lead_undeclared⟩
  refine ⟨by simp [Section.headAt], ⟨t.kind, (section_declares hs h).1⟩, fun j hj hlt => ?_⟩
  rw [Section.headAt, ← List.length_append] at hlt
  exact not_declares (undeclared_within hs (section_before h) hu j hj hlt)

theorem joins_first (hk : start = k) (hi : i < t.headAt k) :
    Joins s start (t.blockAt s.rules k) i := by
  have hfirst := section_first hs h hk
  subst hk
  exact Joins.precedes _ (section_holds s.rules t start) hfirst hi

theorem joins_lead (hatt : t.Attached) (hi : k + t.gap.length ≤ i) (hlt : i < t.headAt k)
    (hr : s.reading i ≠ .blank) : Joins s start (t.blockAt s.rules k) i := by
  have hlead : s.marks.drop (k + t.gap.length) = t.lead ++ (t.head :: (t.body ++ rest)) := by
    simpa [Section.rows] using section_rows h
  rw [Section.headAt, ← Nat.add_assoc] at hlt
  have hcomment := (notes_within hs hlead hatt i hi hlt).resolve_right hr
  have hleads : s.LeadsTo i (t.headAt k) := by
    refine ⟨by rwa [Section.headAt, ← Nat.add_assoc], ⟨t.kind, (section_declares hs h).1⟩, ?_⟩
    intro j hj hjlt
    rw [Section.headAt, ← Nat.add_assoc] at hjlt
    exact notes_within hs hlead hatt j (by omega) hjlt
  exact Joins.leads _ (section_holds s.rules t k) hcomment hleads

theorem section_end : ∃ p, t.headAt k ≤ p ∧ p + 1 = k + t.marks.length ∧
    (s.reading p).isSolid = true := by
  obtain ⟨init, m, hconcat⟩ := (List.eq_nil_or_concat t.marks).resolve_left t.marks_ne_nil
  have hlast : s.marks.drop (k + init.length) = m :: rest := by
    apply drop_append
    simpa [hconcat] using h
  have hends : EndsSolid t.marks := (endsSolid_append t.rows_ne_nil).mpr t.rows_solid
  have hlen : t.marks.length = init.length + 1 := by simp [hconcat]
  refine ⟨k + init.length, ?_, by omega, ?_⟩
  · simp [Section.marks, Section.rows] at hlen
    simp only [Section.headAt]
    omega
  · rw [reading_of_drop hs hlast]
    exact hends m (by simp [hconcat])

theorem joins_body (hk : start ≤ k) (hi : t.headAt k < i) (hlt : i < k + t.marks.length) :
    Joins s start (t.blockAt s.rules k) i := by
  have hend : k + t.marks.length = t.headAt k + 1 + t.body.length := by
    simp [Section.marks, Section.rows, Section.headAt]
    omega
  have hquiet (j : Nat) (hj : t.headAt k + 1 ≤ j) (hlt : j < t.headAt k + 1 + t.body.length) :
      ¬ s.Declares j :=
    not_declares (undeclared_within hs (section_body h) t.body_undeclared j hj hlt)
  have hlast : s.LastBefore start i (t.headAt k) := by
    refine ⟨by simp only [Section.headAt]; omega, hi, ⟨t.kind, (section_declares hs h).1⟩, ?_⟩
    intro j hj hji
    exact hquiet j hj (by omega)
  obtain ⟨p, -, hp, hsolid⟩ := section_end hs h
  exact Joins.follows _ p (section_holds s.rules t k) hlast (by omega) hsolid
    fun j hj hjp => hquiet j (by omega) (by omega)

end Place

theorem undeclared_alone (hs : s.Even) (o : Outline) (h : s.marks.drop start = o.marks)
    (hsections : o.sections = []) : ∀ d, start ≤ d → ¬ s.Declares d := by
  have hall : Undeclared (o.gap ++ (o.tail ++ o.after)) := by
    simp [o.gap_blank.notes.undeclared, o.tail_undeclared, o.after_blank.notes.undeclared]
  rw [Outline.marks, hsections, List.flatMap_nil, List.nil_append] at h
  intro d hd
  exact not_declares (undeclared_onward hs h hall d hd)

/-- Every line of a block that is not blank has a reason to be there. -/
theorem joins_outline (hs : s.Even) (o : Outline) (h : s.marks.drop start = o.marks) :
    ∀ b ∈ o.blocks s.rules start, ∀ i, b.Holds i → s.reading i ≠ .blank → Joins s start b i := by
  intro b hb i hi hr
  rw [Outline.blocks, blocksOf_eq] at hb
  rcases List.mem_append.mp hb with hb | hb
  · obtain ⟨before, t, after, hsections, rfl⟩ := exists_section_of_mem hb
    rw [Outline.marks, hsections] at h
    have hplace := drop_section h
    rcases Nat.lt_trichotomy i (t.headAt (start + (before.flatMap Section.marks).length))
      with hlt | rfl | hlt
    · cases before with
      | nil => exact joins_first hs hplace (by simp) hlt
      | cons u before =>
        have hatt : t.Attached := o.attached t (by simp [hsections])
        exact joins_lead hs hplace hatt hi.1 hlt hr
    · exact joins_head hs hplace
    · exact joins_body hs hplace (by omega) hlt hi.2
  · have htail := drop_append (drop_append h)
    have hheads := tail_heads hs htail o.tail_undeclared b hb
    apply Joins.loose hheads
    by_cases hsections : o.sections = []
    · exact Or.inl (undeclared_alone hs o h hsections)
    · right
      have hnotes : Notes (o.tail ++ o.after) :=
        (notes_append _ _).mpr ⟨o.tail_notes hsections, o.after_blank.notes⟩
      have hstart : start + (o.sections.flatMap Section.marks).length + o.gap.length ≤ i := by
        rw [mem_tailBlocks hb] at hi
        exact hi.1
      constructor
      · exact (notes_onward hs htail hnotes i hstart).resolve_right hr
      · intro j hj
        exact notes_onward hs htail hnotes j (by omega)

def holder (bs : List Block) (i : Nat) : Option Block := bs.find? fun b => b.Holds i

theorem holder_of_holds {bs : List Block} (h : bs.Pairwise fun a b => a.start < b.start ∧ a.stop ≤ b.start)
    {b : Block} (hb : b ∈ bs) (hi : b.Holds i) : holder bs i = some b := by
  induction bs with
  | nil => simp at hb
  | cons a bs ih =>
    rw [List.pairwise_cons] at h
    rcases List.mem_cons.mp hb with rfl | hb
    · simp [holder, hi]
    · have hnot : ¬ a.Holds i := by
        intro ha
        have hle := (h.1 b hb).2
        have hlt := ha.2
        have hge := hi.1
        omega
      simpa [holder, hnot] using ih h.2 hb

namespace Partition

variable {bs : List Block} (hp : Partition s start bs)
include hp

theorem exists_holder (hi : start ≤ i) (hr : s.reading i ≠ .blank) :
    ∃ b ∈ bs, b.Holds i ∧ holder bs i = some b := by
  have hpos : 0 < bs.countP fun b => b.Holds i := by rw [hp.counted i hi hr]; exact Nat.one_pos
  obtain ⟨b, hb, hholds⟩ := List.countP_pos_iff.mp hpos
  have hholds : b.Holds i := by simpa using hholds
  exact ⟨b, hb, hholds, holder_of_holds hp.ordered hb hholds⟩

theorem heads_eq {b : Block} (hb : b ∈ bs) {d : Nat} (hd : b.Holds d) (hdecl : s.Declares d) :
    s.heads b = [d] := by
  obtain ⟨sections, loose, rfl, hone, -, hnone⟩ := hp.headed
  have hmem : d ∈ s.heads b := mem_heads.mpr ⟨hd, hdecl⟩
  rcases List.mem_append.mp hb with hb | hb
  · obtain ⟨x, hx⟩ := List.length_eq_one_iff.mp (hone b hb)
    rw [hx, List.mem_singleton] at hmem
    rw [hx, hmem]
  · simp [(hnone b hb).1] at hmem

theorem heads_unique {b : Block} (hb : b ∈ bs) {d e : Nat} (hd : b.Holds d) (hdecl : s.Declares d)
    (he : b.Holds e) (hedecl : s.Declares e) : d = e := by
  have hmem : e ∈ s.heads b := mem_heads.mpr ⟨he, hedecl⟩
  rw [hp.heads_eq hb hd hdecl, List.mem_singleton] at hmem
  exact hmem.symm

theorem loose_last {b : Block} (hb : b ∈ bs) (hn : s.heads b = []) :
    bs.getLast? = some b ∧ b.kind = .loose := by
  obtain ⟨sections, loose, rfl, hone, hlen, hnone⟩ := hp.headed
  rcases List.mem_append.mp hb with hb | hb
  · have := hone b hb
    simp [hn] at this
  · cases loose with
    | nil => simp at hb
    | cons c rest =>
      obtain rfl : rest = [] := by simpa using hlen
      obtain rfl := List.mem_singleton.mp hb
      exact ⟨by simp, (hnone b (by simp)).2⟩

end Partition

section Rule

variable {bs : List Block} (hp : Partition s start bs)
  (hj : ∀ b ∈ bs, ∀ i, b.Holds i → s.reading i ≠ .blank → Joins s start b i)
include hp hj

theorem exists_joins (hi : start ≤ i) (hr : s.reading i ≠ .blank) :
    ∃ b ∈ bs, holder bs i = some b ∧ b.Holds i ∧ Joins s start b i := by
  obtain ⟨b, hb, hholds, heq⟩ := hp.exists_holder hi hr
  exact ⟨b, hb, heq, hholds, hj b hb i hholds hr⟩

theorem holder_head {d : Nat} {kind : Kind} (hd : start ≤ d) (hr : s.reading d = .declaration kind) :
    ∃ b, holder bs d = some b ∧ s.heads b = [d] ∧ b.kind = s.rules.settle kind (s.line d) := by
  have hdecl : s.Declares d := ⟨kind, hr⟩
  obtain ⟨b, hb, heq, hholds, hjoin⟩ := exists_joins hp hj hd (by simp [hr])
  have hheads := hp.heads_eq hb hholds hdecl
  refine ⟨b, heq, hheads, ?_⟩
  cases hjoin with
  | heads kind' hr' hkind =>
    obtain rfl : kind' = kind := by simpa [hr] using hr'.symm
    exact hkind
  | precedes e he hfirst hlt =>
    exact absurd (hp.heads_unique hb hholds hdecl he hfirst.2.1) (by omega)
  | leads e he hc _ => simp [hr] at hc
  | follows e k he hlast hk _ hquiet => exact absurd hdecl (hquiet d (Nat.le_refl d) hk)
  | loose hnone _ => simp [hnone] at hheads

theorem holder_before {d : Nat} (hfirst : s.FirstFrom start d) (hi : start ≤ i) (hlt : i < d)
    (hr : s.reading i ≠ .blank) : holder bs i = holder bs d := by
  obtain ⟨b, hb, heq, -, hjoin⟩ := exists_joins hp hj hi hr
  rw [heq]
  have hsame (e : Nat) (he : b.Holds e) (hed : e = d) : some b = holder bs d := by
    subst hed
    exact (holder_of_holds hp.ordered hb he).symm
  cases hjoin with
  | heads kind hr' _ => exact absurd ⟨kind, hr'⟩ (hfirst.2.2 i hi hlt)
  | precedes e he hfirst' _ => exact hsame e he (hfirst'.unique hfirst)
  | leads e he _ hleads =>
    have hle := hleads.le_of_solid hlt hfirst.2.1.isSolid
    have hge : ¬ e < d := fun h => hfirst.2.2 e (by have := hleads.1; omega) h hleads.2.1
    exact hsame e he (by omega)
  | follows e k _ hlast _ _ _ =>
    exact absurd hlast.2.2.1 (hfirst.2.2 e hlast.1 (by have := hlast.2.1; omega))
  | loose _ hwhy =>
    rcases hwhy with hnone | ⟨-, hends⟩
    · exact absurd hfirst.2.1 (hnone d hfirst.1)
    · have := hends.le_of_solid hfirst.2.1.isSolid
      omega

theorem holder_comment {d n : Nat} (hd : start ≤ d) (hdecl : s.Declares d) (hdi : d < i)
    (hc : s.reading i = .comment) (hn : s.NextAfter i n) :
    holder bs i = holder bs n ↔ s.LeadsTo i n := by
  obtain ⟨b, hb, heq, hholds, hjoin⟩ := exists_joins hp hj (i := i) (by omega) (by simp [hc])
  have hin : i < n := hn.1
  have hsame (hbn : b.Holds n) : holder bs i = holder bs n := by
    rw [heq, holder_of_holds hp.ordered hb hbn]
  have hother (hbn : ¬ b.Holds n) : holder bs i ≠ holder bs n := by
    rw [heq]
    intro h
    exact hbn (by simpa using List.find?_some h.symm)
  -- A comment joins a block for one of five reasons, and only one of them is the next declaration.
  cases hjoin with
  | heads kind hr _ => simp [hc] at hr
  | precedes e _ hfirst hie => exact absurd hdecl (hfirst.2.2 d hd (by omega))
  | leads e he _ hleads =>
    obtain rfl := hleads.nextAfter.unique hn
    exact iff_of_true (hsame he) hleads
  | follows e k he hlast hk hsolid hquiet =>
    have hki : i < k := by
      rcases Nat.eq_or_lt_of_le hk with rfl | hlt
      · simp [hc, isSolid_iff] at hsolid
      · exact hlt
    apply iff_of_false
    · apply hother
      intro hbn
      have hen := hp.heads_unique hb he hlast.2.2.1 hbn hn.2.1
      have := hlast.2.1
      omega
    · intro hleads
      exact hquiet n (by omega) (hleads.le_of_solid hki hsolid) hn.2.1
  | loose _ hwhy =>
    rcases hwhy with hnone | ⟨-, hends⟩
    · exact absurd hdecl (hnone d hd)
    · have := hends.le_of_solid hn.2.1.isSolid
      omega

theorem holder_ending (hi : start ≤ i) (hc : s.reading i = .comment) (hends : s.EndsAfter i) :
    ∃ b, holder bs i = some b ∧ bs.getLast? = some b ∧ b.kind = .loose ∧ s.heads b = [] := by
  obtain ⟨b, hb, heq, -, hjoin⟩ := exists_joins hp hj hi (by simp [hc])
  cases hjoin with
  | heads kind hr _ => simp [hc] at hr
  | precedes e _ hfirst hie =>
    have := hends.le_of_solid hfirst.2.1.isSolid
    omega
  | leads e _ _ hleads =>
    have := hends.le_of_solid hleads.2.1.isSolid
    have := hleads.1
    omega
  | follows e k _ _ hk hsolid _ =>
    obtain rfl : k = i := Nat.le_antisymm (hends.le_of_solid hsolid) hk
    simp [hc, isSolid_iff] at hsolid
  | loose hnone _ =>
    obtain ⟨hlast, hkind⟩ := hp.loose_last hb hnone
    exact ⟨b, heq, hlast, hkind, hnone⟩

theorem holder_otherwise {d : Nat} (hlast : s.LastBefore start i d) (hr : s.reading i ≠ .blank)
    (hnd : ¬ s.Declares i) (hrest : s.reading i = .comment →
      (¬ ∃ n, s.LeadsTo i n) ∧ ¬ s.EndsAfter i) : holder bs i = holder bs d := by
  have hdi : d < i := hlast.2.1
  have hsd : start ≤ d := hlast.1
  obtain ⟨b, hb, heq, -, hjoin⟩ := exists_joins hp hj (i := i) (by omega) hr
  cases hjoin with
  | heads kind hread _ => exact absurd ⟨kind, hread⟩ hnd
  | precedes e _ hfirst hie => exact absurd hlast.2.2.1 (hfirst.2.2 d hlast.1 (by omega))
  | leads e _ hc hleads => exact absurd ⟨e, hleads⟩ (hrest hc).1
  | follows e k he hlast' _ _ _ =>
    obtain rfl := hlast'.unique hlast
    rw [heq, holder_of_holds hp.ordered hb he]
  | loose _ hwhy =>
    rcases hwhy with hnone | ⟨hc, hends⟩
    · exact absurd hlast.2.2.1 (hnone d hlast.1)
    · exact absurd hends (hrest hc).2

omit hj in
theorem holder_undeclared (hnone : ∀ d, start ≤ d → ¬ s.Declares d) (hi : start ≤ i)
    (hr : s.reading i ≠ .blank) : ∃ b, bs = [b] ∧ b.Holds i ∧ b.kind = .loose := by
  obtain ⟨b, hb, hholds, -⟩ := hp.exists_holder hi hr
  obtain ⟨sections, loose, rfl, hone, hlen, hloose⟩ := hp.headed
  cases sections with
  | nil =>
    obtain ⟨c, rfl⟩ := List.length_eq_one_iff.mp
      (Nat.le_antisymm hlen (List.length_pos_of_mem (by simpa using hb)))
    obtain rfl : b = c := by simpa using hb
    exact ⟨b, rfl, hholds, (hloose b (by simp)).2⟩
  | cons a sections =>
    obtain ⟨d, hd⟩ := List.length_eq_one_iff.mp (hone a (by simp))
    have hmem : d ∈ s.heads a := by simp [hd]
    obtain ⟨had, hdecl⟩ := mem_heads.mp hmem
    have hstart := (hp.inside a (by simp)).1
    exact absurd hdecl (hnone d (Nat.le_trans hstart had.1))

end Rule

theorem sectionBlocks_kinds (rules : Rulebook) (i : Nat) (sections : List Section) :
    (sectionBlocks rules i sections).map Block.kind = sections.map (Section.settled rules) := by
  induction sections generalizing i with
  | nil => rfl
  | cons t ts ih => simp [sectionBlocks, ih, Section.blockAt]

theorem kinds_outline (hs : s.Even) (o : Outline) (h : s.marks.drop start = o.marks) :
    ((o.blocks s.rules start).filter fun b => s.heads b ≠ []).map Block.kind =
      (declarations s.rules o.marks).map Prod.snd := by
  have hsections : (sectionBlocks s.rules start o.sections).filter (fun b => s.heads b ≠ []) =
      sectionBlocks s.rules start o.sections := by
    apply List.filter_eq_self.mpr
    intro b hb
    have hone := sections_headed hs s.rules o.sections h b hb
    simpa using List.ne_nil_of_length_eq_add_one hone
  have htail : (tailBlocks (start + (o.sections.flatMap Section.marks).length + o.gap.length)
      o.tail).filter (fun b => s.heads b ≠ []) = [] := by
    apply List.filter_eq_nil_iff.mpr
    intro b hb
    simp [tail_heads hs (drop_append (drop_append h)) o.tail_undeclared b hb]
  rw [Outline.blocks, blocksOf_eq, List.filter_append, hsections, htail, List.append_nil,
    sectionBlocks_kinds, declarations_marks, List.map_map]
  rfl

/-- The rule by which each line that is not blank has its block. -/
structure Ownership (s : Script) (start : Nat) (bs : List Block) : Prop where
  head : ∀ d kind, start ≤ d → s.reading d = .declaration kind →
    ∃ b, holder bs d = some b ∧ s.heads b = [d] ∧ b.kind = s.rules.settle kind (s.line d)
  before : ∀ d i, s.FirstFrom start d → start ≤ i → i < d → s.reading i ≠ .blank →
    holder bs i = holder bs d
  comment : ∀ d i n, start ≤ d → s.Declares d → d < i → s.reading i = .comment →
    s.NextAfter i n → (holder bs i = holder bs n ↔ s.LeadsTo i n)
  ending : ∀ i, start ≤ i → s.reading i = .comment → s.EndsAfter i →
    ∃ b, holder bs i = some b ∧ bs.getLast? = some b ∧ b.kind = .loose ∧ s.heads b = []
  otherwise : ∀ d i, s.LastBefore start i d → s.reading i ≠ .blank → ¬ s.Declares i →
    (s.reading i = .comment → (¬ ∃ n, s.LeadsTo i n) ∧ ¬ s.EndsAfter i) →
    holder bs i = holder bs d
  undeclared : (∀ d, start ≤ d → ¬ s.Declares d) → ∀ i, start ≤ i → s.reading i ≠ .blank →
    ∃ b, bs = [b] ∧ b.Holds i ∧ b.kind = .loose
  kinds : (bs.filter fun b => s.heads b ≠ []).map Block.kind =
    (declarations s.rules (s.marks.drop start)).map Prod.snd

theorem blocks_own_lines (hs : s.Even) (start : Nat) : Ownership s start (blocks s start) := by
  obtain ⟨o, ho⟩ := Outline.exists_outline (s.marks.drop start)
  have hblocks := blocks_outline hs o ho.symm
  have hp : Partition s start (blocks s start) := hblocks ▸ partition_outline hs s.rules o ho.symm
  have hj := joins_outline hs o ho.symm
  rw [← hblocks] at hj
  have hkinds := kinds_outline hs o ho.symm
  rw [← hblocks, ho] at hkinds
  constructor
  · intro d kind hd hr
    exact holder_head hp hj hd hr
  · intro d i hfirst hi hlt hr
    exact holder_before hp hj hfirst hi hlt hr
  · intro d i n hd hdecl hdi hc hn
    exact holder_comment hp hj hd hdecl hdi hc hn
  · intro i hi hc hends
    exact holder_ending hp hj hi hc hends
  · intro d i hlast hr hnd hrest
    exact holder_otherwise hp hj hlast hr hnd hrest
  · intro hnone i hi hr
    exact holder_undeclared hp hnone hi hr
  · exact hkinds

def annotatedText : Text :=
  "# a\nvar x\n\n# b\n\nfunc f():\n\tpass\n# c\n\treturn\n\n# d\n".toList

def annotated : Script := .ofText .default annotatedText

end Scan

end ScriptOrder
