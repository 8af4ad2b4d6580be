import Mathlib.Data.List.Basic
import Mathlib.Data.Nat.Find
import ScriptOrder.Proofs.Openers
import ScriptOrder.Proofs.Ownership
import ScriptOrder.Proofs.Positions

/-!
# What is remarked, and at which line

A remark of each kind is made once at most. The remarks on stray text and on
text without a declaration are told by the readings of the lines alone: each has
a condition that at most one line meets, and that line is the one it names.
-/

set_option autoImplicit false

namespace ScriptOrder
open Marks

inductive RemarkKind where
  | unterminated
  | stray
  | dangling
deriving DecidableEq, Repr

def Cause.kind : Cause → RemarkKind
  | unterminated => .unterminated
  | stray _ => .stray
  | dangling => .dangling

namespace Script

def FirstFilled (s : Script) (start n : Nat) : Prop :=
  start ≤ n ∧ s.reading n ≠ .blank ∧ ∀ j, start ≤ j → j < n → s.reading j = .blank

def LastFrom (s : Script) (start d : Nat) : Prop :=
  start ≤ d ∧ s.Declares d ∧ ∀ j, d < j → ¬ s.Declares j

def StrayBefore (s : Script) (start d : Nat) : Prop :=
  ∃ j, start ≤ j ∧ j < d ∧ (s.reading j = .body ∨ s.reading j = .code)

/-- Line `i` is a comment after line `d` in the comments and blank lines that end
the script. -/
def Trails (s : Script) (d i : Nat) : Prop := d < i ∧ s.reading i = .comment ∧ s.EndsAfter i

/-- Stray text is kept with the declaration `head`, and line `n` is where it begins. -/
def Strays (s : Script) (start n head : Nat) : Prop :=
  s.FirstFrom start head ∧ s.StrayBefore start head ∧ s.FirstFilled start n

/-- Line `n` is where the text without a declaration after it begins. -/
inductive Dangles (s : Script) (start n : Nat) : Prop
  | alone : (∀ d, start ≤ d → ¬ s.Declares d) → s.FirstFilled start n → Dangles s start n
  | trailing (d : Nat) : s.LastFrom start d → s.Trails d n → (∀ j, s.Trails d j → n ≤ j) →
      Dangles s start n

variable {s : Script} {start m n d e i : Nat}

theorem FirstFilled.unique (hm : s.FirstFilled start m) (hn : s.FirstFilled start n) : m = n := by
  rcases Nat.lt_trichotomy m n with h | h | h
  · exact absurd (hn.2.2 m hm.1 h) hm.2.1
  · exact h
  · exact absurd (hm.2.2 n hn.1 h) hn.2.1

theorem LastFrom.unique (hd : s.LastFrom start d) (he : s.LastFrom start e) : d = e := by
  rcases Nat.lt_trichotomy d e with h | h | h
  · exact absurd he.2.1 (hd.2.2 e h)
  · exact h
  · exact absurd hd.2.1 (he.2.2 d h)

theorem Dangles.unique (hm : s.Dangles start m) (hn : s.Dangles start n) : m = n := by
  cases hm with
  | alone hnone hfirst =>
    cases hn with
    | alone _ hfirst' => exact hfirst.unique hfirst'
    | trailing d hd _ _ => exact absurd hd.2.1 (hnone d hd.1)
  | trailing d hd htrails hleast =>
    cases hn with
    | alone hnone _ => exact absurd hd.2.1 (hnone d hd.1)
    | trailing e he htrails' hleast' =>
      obtain rfl := hd.unique he
      exact Nat.le_antisymm (hleast n htrails') (hleast' m htrails)

theorem Trails.lt_of_solid (h : s.Trails d i) (he : (s.reading e).isSolid = true) : e < i := by
  refine Nat.lt_of_le_of_ne (h.2.2.le_of_solid he) ?_
  rintro rfl
  simp [h.2.1, isSolid_iff] at he

theorem exists_firstFilled (hi : start ≤ i) (hr : s.reading i ≠ .blank) :
    ∃ n, s.FirstFilled start n := by
  classical
  have hex : ∃ n, start ≤ n ∧ s.reading n ≠ .blank := ⟨i, hi, hr⟩
  obtain ⟨hle, hfilled⟩ := Nat.find_spec hex
  refine ⟨Nat.find hex, hle, hfilled, fun j hj hlt => ?_⟩
  by_contra hblank
  exact Nat.find_min hex hlt ⟨hj, hblank⟩

theorem exists_strays_iff : (∃ n head, s.Strays start n head) ↔
    ∃ d, s.FirstFrom start d ∧ s.StrayBefore start d := by
  constructor
  · rintro ⟨n, head, hfirst, hstray, -⟩
    exact ⟨head, hfirst, hstray⟩
  · rintro ⟨d, hfirst, hstray⟩
    obtain ⟨n, hn⟩ := exists_firstFilled hfirst.1 (not_or.mp hfirst.2.1.unnoted).2
    exact ⟨n, d, hfirst, hstray, hn⟩

theorem exists_dangles_iff : (∃ n, s.Dangles start n) ↔
    ((∀ d, start ≤ d → ¬ s.Declares d) ∧ ∃ i, start ≤ i ∧ s.reading i ≠ .blank) ∨
    ∃ d, s.LastFrom start d ∧ ∃ i, s.Trails d i := by
  constructor
  · rintro ⟨n, hnone, hfirst⟩
    · exact Or.inl ⟨‹_›, n, hfirst.1, hfirst.2.1⟩
    · exact Or.inr ⟨_, ‹_›, n, ‹_›⟩
  · rintro (⟨hnone, i, hi, hr⟩ | ⟨d, hd, hex⟩)
    · obtain ⟨n, hn⟩ := exists_firstFilled hi hr
      exact ⟨n, .alone hnone hn⟩
    · classical
      exact ⟨Nat.find hex, .trailing d hd (Nat.find_spec hex) fun j hj => Nat.find_min' hex hj⟩

theorem firstFilled_of_drop (hs : s.Even) {gap ms : List Mark} (h : s.marks.drop i = gap ++ ms)
    (hg : Blanks gap) (hne : ms ≠ []) (hf : BeginsFilled ms) : s.FirstFilled i (i + gap.length) := by
  obtain ⟨m, rest, rfl⟩ := List.exists_cons_of_ne_nil hne
  refine ⟨Nat.le_add_right i _, ?_, blank_within hs h hg⟩
  rw [reading_of_drop hs (drop_append h)]
  simpa using hf

end Script

namespace Outline

def strayRemarks (i : Nat) (o : Outline) : List Remark :=
  match o.sections with
  | [] => []
  | t :: _ => t.remarksAt i

def tailAt (i : Nat) (o : Outline) : Nat :=
  i + (o.sections.flatMap Section.marks).length + o.gap.length

theorem remarksOf_attached {gap tail : List Mark} {sections : List Section}
    (h : ∀ t ∈ sections, t.Attached) (i : Nat) : remarksOf gap tail i sections =
      tailRemarks (i + (sections.flatMap Section.marks).length + gap.length) tail := by
  induction sections generalizing i with
  | nil => rfl
  | cons t rest ih =>
    rw [List.forall_mem_cons] at h
    rw [remarksOf, Section.remarksAt, if_pos h.1, List.nil_append, ih h.2, List.flatMap_cons,
      List.length_append, ← Nat.add_assoc i]

theorem remarks_eq (i : Nat) (o : Outline) :
    o.remarks i = o.strayRemarks i ++ tailRemarks (o.tailAt i) o.tail := by
  have hatt := o.attached
  rw [remarks, strayRemarks, tailAt]
  cases hsections : o.sections with
  | nil => rfl
  | cons t rest =>
    rw [hsections, List.tail_cons] at hatt
    rw [remarksOf, remarksOf_attached hatt, List.flatMap_cons, List.length_append,
      ← Nat.add_assoc i]

theorem kinds_remarks (i : Nat) (o : Outline) :
    ((o.remarks i).map fun r => r.cause.kind).Sublist [.stray, .dangling] := by
  have hstray : ((o.strayRemarks i).map fun r => r.cause.kind).Sublist [.stray] := by
    rw [strayRemarks]
    split
    · simp
    · rw [Section.remarksAt]
      split <;> simp [Cause.kind]
  have htail : ((tailRemarks (o.tailAt i) o.tail).map fun r => r.cause.kind).Sublist
      [.dangling] := by
    rw [tailRemarks]
    split <;> simp [Cause.kind]
  rw [remarks_eq, List.map_append]
  exact hstray.append htail

end Outline

namespace Scan
open Script Outline

variable {s : Script} {start n : Nat} (hs : s.Even)
include hs

section Place

variable {k : Nat} {t : Section} {rest : List Mark} (h : s.marks.drop k = t.marks ++ rest)
include h

theorem section_firstFilled : s.FirstFilled k (k + t.gap.length) := by
  have hgap := section_before h
  rw [List.append_assoc] at hgap
  exact firstFilled_of_drop hs hgap t.gap_blank (by simp)
    (t.lead_filled.append (by simp [Section.head]))

theorem strayBefore_iff : s.StrayBefore k (t.headAt k) ↔ ¬ t.Attached := by
  have hlead : s.marks.drop (k + t.gap.length) = t.lead ++ (t.head :: (t.body ++ rest)) := by
    simpa [Section.rows] using section_rows h
  constructor
  · rintro ⟨j, hj, hlt, hr⟩ hatt
    have hnotes : Notes (t.gap ++ t.lead) := (notes_append _ _).mpr ⟨t.gap_blank.notes, hatt⟩
    rw [Section.headAt, ← List.length_append] at hlt
    rcases notes_within hs (section_before h) hnotes j hj hlt with hn | hn <;> simp [hn] at hr
  · intro hatt
    obtain ⟨m, hm, hnote⟩ : ∃ m ∈ t.lead, ¬ (m.2 = .comment ∨ m.2 = .blank) := by
      simpa [Section.Attached, Notes] using hatt
    obtain ⟨j, hj, hlt, hr⟩ := exists_line_of_mem hs hlead hm
    have hdecl := t.lead_undeclared m hm
    refine ⟨j, by omega, by rwa [Section.headAt, ← Nat.add_assoc], ?_⟩
    rw [hr]
    cases hm2 : m.2 with
    | body => exact Or.inl rfl
    | code => exact Or.inr rfl
    | declaration kind => exact absurd hm2 (hdecl kind)
    | blank => simp [hm2] at hnote
    | comment => simp [hm2] at hnote

theorem mem_remarksAt (hk : start = k) (r : Remark) : r ∈ t.remarksAt start ↔
    ∃ head, r.cause = .stray head ∧ s.Strays start r.line head := by
  subst hk
  have hfirst := section_first hs h rfl
  have hbegins := section_firstFilled hs h
  rw [Section.remarksAt]
  constructor
  · intro hr
    split at hr
    · simp at hr
    · obtain rfl := List.mem_singleton.mp hr
      exact ⟨_, rfl, hfirst, (strayBefore_iff hs h).mpr ‹_›, hbegins⟩
  · rintro ⟨head, hcause, hfirst', hstray, hbegins'⟩
    obtain rfl := hfirst'.unique hfirst
    rw [if_neg ((strayBefore_iff hs h).mp hstray), List.mem_singleton,
      hbegins.unique hbegins', ← hcause]

end Place

variable (o : Outline) (h : s.marks.drop start = o.marks)
include h

theorem exists_last_section (hsections : o.sections ≠ []) : ∃ d p, s.LastFrom start d ∧ d ≤ p ∧
    p + 1 = start + (o.sections.flatMap Section.marks).length ∧ (s.reading p).isSolid = true := by
  obtain ⟨init, t, hconcat⟩ := (List.eq_nil_or_concat o.sections).resolve_left hsections
  have hsplit : o.sections = init ++ t :: [] := by simpa using hconcat
  have hplace : s.marks.drop (start + (init.flatMap Section.marks).length) =
      t.marks ++ (o.gap ++ (o.tail ++ o.after)) := by
    rw [Outline.marks, hsplit] at h
    simpa using drop_section h
  have hquiet : Undeclared (t.body ++ (o.gap ++ (o.tail ++ o.after))) := by
    simp [t.body_undeclared, o.gap_blank.notes.undeclared, o.tail_undeclared,
      o.after_blank.notes.undeclared]
  obtain ⟨p, hle, hp, hsolid⟩ := section_end hs hplace
  refine ⟨_, p, ⟨?_, ⟨t.kind, (section_declares hs hplace).1⟩, fun j hj => ?_⟩, hle, ?_, hsolid⟩
  · simp only [Section.headAt]
    omega
  · exact not_declares (undeclared_onward hs (section_body hplace) hquiet j hj)
  · simp [hp, hsplit, Nat.add_assoc]

theorem mem_strayRemarks (r : Remark) : r ∈ o.strayRemarks start ↔
    ∃ head, r.cause = .stray head ∧ s.Strays start r.line head := by
  rw [strayRemarks]
  cases hsections : o.sections with
  | nil =>
    have hnone := undeclared_alone hs o h hsections
    refine ⟨by simp, ?_⟩
    rintro ⟨head, -, hfirst, -, -⟩
    exact absurd hfirst.2.1 (hnone head hfirst.1)
  | cons t rest =>
    have hplace : s.marks.drop start =
        t.marks ++ (rest.flatMap Section.marks ++ (o.gap ++ (o.tail ++ o.after))) := by
      simpa [Outline.marks, hsections] using h
    exact mem_remarksAt hs hplace rfl r

theorem not_dangles (htail : o.tail = []) : ¬ s.Dangles start n := by
  have hrest : s.marks.drop (start + (o.sections.flatMap Section.marks).length) =
      o.gap ++ o.after := by
    apply drop_append
    simpa [Outline.marks, htail] using h
  have hblank := blank_onward hs hrest ((blanks_append _ _).mpr ⟨o.gap_blank, o.after_blank⟩)
  rintro (⟨hnone, hfirst⟩ | ⟨d, hd, htrails, -⟩)
  · by_cases hsections : o.sections = []
    · exact hfirst.2.1 (hblank n (by simpa [hsections] using hfirst.1))
    · obtain ⟨d, p, hd, -⟩ := exists_last_section hs o h hsections
      exact hnone d hd.1 hd.2.1
  · by_cases hsections : o.sections = []
    · exact undeclared_alone hs o h hsections d hd.1 hd.2.1
    · obtain ⟨e, p, -, -, hp, hsolid⟩ := exists_last_section hs o h hsections
      have hlt := htrails.lt_of_solid hsolid
      have hr := hblank n (by omega)
      simp [htrails.2.1] at hr

theorem dangles_tail (htail : o.tail ≠ []) : s.Dangles start (o.tailAt start) := by
  have hrest : s.marks.drop (start + (o.sections.flatMap Section.marks).length) =
      o.gap ++ (o.tail ++ o.after) := drop_append h
  have hfirst := firstFilled_of_drop hs hrest o.gap_blank (by simp [htail])
    ((beginsFilled_append htail).mpr o.tail_begins)
  by_cases hsections : o.sections = []
  · refine .alone (undeclared_alone hs o h hsections) ?_
    simpa [tailAt, hsections] using hfirst
  · obtain ⟨d, p, hd, hdp, hp, hsolid⟩ := exists_last_section hs o h hsections
    have hnotes : Notes (o.tail ++ o.after) :=
      (notes_append _ _).mpr ⟨o.tail_notes hsections, o.after_blank.notes⟩
    have hends := notes_onward hs (drop_append hrest) hnotes
    have htrails : s.Trails d (o.tailAt start) := by
      refine ⟨?_, (hends _ (Nat.le_refl _)).resolve_right hfirst.2.1, fun j hj => hends j ?_⟩
      · rw [tailAt]
        omega
      · rw [tailAt] at hj
        omega
    -- What trails the last declaration stands past the line `p`, and blank lines come first there.
    refine .trailing d hd htrails fun j hj => ?_
    have hpj := hj.lt_of_solid hsolid
    by_contra hlt
    have hr := hfirst.2.2 j (by omega) (by rw [tailAt] at hlt; omega)
    simp [hj.2.1] at hr

theorem mem_tailRemarks (r : Remark) : r ∈ tailRemarks (o.tailAt start) o.tail ↔
    r.cause = .dangling ∧ s.Dangles start r.line := by
  rw [tailRemarks]
  split
  · rename_i htail
    exact ⟨by simp, fun hr => absurd hr.2 (not_dangles hs o h htail)⟩
  · rename_i htail
    have hdangles := dangles_tail hs o h htail
    rw [List.mem_singleton]
    constructor
    · rintro rfl
      exact ⟨rfl, hdangles⟩
    · rintro ⟨hcause, hr⟩
      rw [hdangles.unique hr, ← hcause]

theorem mem_remarks_iff (r : Remark) : r ∈ o.remarks start ↔
    (∃ head, r.cause = .stray head ∧ s.Strays start r.line head) ∨
      r.cause = .dangling ∧ s.Dangles start r.line := by
  rw [remarks_eq, List.mem_append, mem_strayRemarks hs o h, mem_tailRemarks hs o h]

end Scan

namespace Script

/-- `rs` are the remarks on a script whose blocks begin at line `start`: what is
remarked and where, by the readings of the lines and the strings that they open. -/
structure Remarked (s : Script) (start : Nat) (rs : List Remark) : Prop where
  once : (rs.map fun r => r.cause.kind).Nodup
  inside : ∀ r ∈ rs, r.line < s.lines.length
  ordered : rs.Pairwise fun a b => a.line ≤ b.line
  unterminated : (∃ n, ⟨n, .unterminated⟩ ∈ rs) ↔ s.EndsOpen
  unterminated_at : ∀ n, ⟨n, .unterminated⟩ ∈ rs ↔ s.OpenSince n
  /-- The line opened the string unless a later one closes it and opens another. -/
  opener : ∀ n, ⟨n, .unterminated⟩ ∈ rs →
    (s.OpenedIn n ↔ ∀ j, n < j → j < s.lines.length → ¬ s.Reopens j)
  stray : (∃ n head, ⟨n, .stray head⟩ ∈ rs) ↔ ∃ d, s.FirstFrom start d ∧ s.StrayBefore start d
  stray_at : ∀ n head, ⟨n, .stray head⟩ ∈ rs ↔ s.Strays start n head
  dangling : (∃ n, ⟨n, .dangling⟩ ∈ rs) ↔
    ((∀ d, start ≤ d → ¬ s.Declares d) ∧ ∃ i, start ≤ i ∧ s.reading i ≠ .blank) ∨
    ∃ d, s.LastFrom start d ∧ ∃ i, s.Trails d i
  dangling_at : ∀ n, ⟨n, .dangling⟩ ∈ rs ↔ s.Dangles start n

end Script

namespace Reading

theorem mem_remarks_lines (s : Script) (r : Remark) : r ∈ remarks s.lines ↔
    r.cause = .unterminated ∧ s.OpenSince r.line := by
  rcases s.remarks_lines with ⟨hnil, hclosed⟩ | ⟨n, hone, hn⟩
  · rw [hnil]
    exact ⟨by simp, fun hr => absurd hr.2.endsOpen hclosed⟩
  · rw [hone, List.mem_singleton]
    constructor
    · rintro rfl
      exact ⟨rfl, hn⟩
    · rintro ⟨hcause, hr⟩
      rw [hn.unique hr, ← hcause]

theorem kinds_remarks_lines (s : Script) :
    ((remarks s.lines).map fun r => r.cause.kind).Sublist [.unterminated] := by
  rcases s.remarks_lines with ⟨hnil, -⟩ | ⟨n, hone, -⟩
  · simp [hnil]
  · simp [hone, Cause.kind]

end Reading

namespace Arrange

variable {s : Script}

theorem kinds_nodup (hs : s.Even) : ((remarks s).map fun r => r.cause.kind).Nodup := by
  obtain ⟨o, ho⟩ := Outline.exists_outline (s.marks.drop (start s))
  have hkinds := (Reading.kinds_remarks_lines s).append (o.kinds_remarks (start s))
  rw [← List.map_append, ← Scan.remarks_outline hs o ho.symm] at hkinds
  rw [((remarks_perm s).map _).nodup_iff]
  exact hkinds.nodup (by decide)

theorem ordered_remarks (s : Script) : (remarks s).Pairwise fun a b => a.line ≤ b.line :=
  StableSort.sorted_pairwise Remark.line _

theorem mem_remarks_cause (hs : s.Even) (r : Remark) : r ∈ remarks s ↔
    (r.cause = .unterminated ∧ s.OpenSince r.line) ∨
    (∃ head, r.cause = .stray head ∧ s.Strays (start s) r.line head) ∨
      r.cause = .dangling ∧ s.Dangles (start s) r.line := by
  obtain ⟨o, ho⟩ := Outline.exists_outline (s.marks.drop (start s))
  rw [mem_remarks, Reading.mem_remarks_lines, Scan.remarks_outline hs o ho.symm,
    Scan.mem_remarks_iff hs o ho.symm]

/-- What is remarked about a script, and at which line. -/
theorem remarks_exact (rules : Rulebook) (t : Text) :
    (Script.ofText rules t).Remarked (start (Script.ofText rules t)) (arrange rules t).remarks := by
  have hs : (Script.ofText rules t).Even := Script.ofLines_even rules _
  have hmem (r : Remark) : r ∈ (arrange rules t).remarks ↔ _ := mem_remarks_cause hs r
  have hopen (n : Nat) : ⟨n, .unterminated⟩ ∈ (arrange rules t).remarks ↔
      (Script.ofText rules t).OpenSince n := by
    simpa using hmem ⟨n, .unterminated⟩
  have hstray (n head : Nat) : ⟨n, .stray head⟩ ∈ (arrange rules t).remarks ↔
      (Script.ofText rules t).Strays (start (Script.ofText rules t)) n head := by
    simpa using hmem ⟨n, .stray head⟩
  have hdangling (n : Nat) : ⟨n, .dangling⟩ ∈ (arrange rules t).remarks ↔
      (Script.ofText rules t).Dangles (start (Script.ofText rules t)) n := by
    simpa using hmem ⟨n, .dangling⟩
  exact {
    once := kinds_nodup hs
    inside := remarks_lt
    ordered := ordered_remarks _
    unterminated := by simp only [hopen, Script.exists_openSince_iff]
    unterminated_at := hopen
    opener := fun n hn => ((hopen n).mp hn).openedIn_iff
    stray := by simp only [hstray, Script.exists_strays_iff]
    stray_at := hstray
    dangling := by simp only [hdangling, Script.exists_dangles_iff]
    dangling_at := hdangling }

def splicedScript : Text := "var a = \"\"\"x\ny\"\"\" + \"\"\"z\n".toList

/-- The string that is open at the end was opened in the second line, and the first
is named. -/
theorem splicedScript_misplaced : (arrange .default splicedScript).remarks = [⟨0, .unterminated⟩] ∧
    (Script.ofText .default splicedScript).OpenedIn 1 ∧
    ¬ (Script.ofText .default splicedScript).OpenedIn 0 := by
  refine ⟨remarks_single (by decide), ⟨by decide, by decide, ⟨4, by decide⟩, ?_⟩, ?_⟩
  · intro j hj hlt
    have hlen : (Script.ofText .default splicedScript).lines.length = 2 := by decide
    omega
  · rintro ⟨-, -, -, hopen⟩
    exact absurd (hopen 1 (by decide) (by decide) 4) (by decide)

end Arrange

end ScriptOrder
