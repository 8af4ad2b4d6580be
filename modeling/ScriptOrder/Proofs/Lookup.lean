import ScriptOrder.Proofs.Marks

/-!
# Looking lines up

What the searches of a script find, told from the marks that stand from a
line on. The hypothesis `s.marks.drop i = ms` says that the marks from line
`i` to the end are `ms`.
-/

set_option autoImplicit false

namespace ScriptOrder.Script
open Marks

/-- Every line has its reading. -/
def Even (s : Script) : Prop := s.lines.length = s.readings.length

variable {s : Script} {i : Nat}

theorem ofLines_even (rules : Rulebook) (ls : List Line) : (ofLines rules ls).Even :=
  (Reading.ofLines_length rules ls).symm

theorem marks_length (hs : s.Even) : s.marks.length = s.length := by
  have hlen : s.lines.length = s.readings.length := hs
  simp [marks, length, hlen]

theorem readings_drop (hs : s.Even) (i : Nat) : s.readings.drop i = (s.marks.drop i).map Prod.snd := by
  rw [List.map_drop, marks, List.map_snd_zip (Nat.le_of_eq hs.symm)]

theorem marks_readings (hs : s.Even) : s.marks.map Prod.snd = s.readings := by
  simpa using (readings_drop hs 0).symm

theorem marks_lines (hs : s.Even) : s.marks.map Prod.fst = s.lines := by
  rw [marks, List.map_fst_zip (Nat.le_of_eq hs)]

theorem drop_append {ms ns : List Mark} (h : s.marks.drop i = ms ++ ns) :
    s.marks.drop (i + ms.length) = ns := by
  rw [← List.drop_drop, h, List.drop_left]

theorem drop_cons {m : Mark} {ms : List Mark} (h : s.marks.drop i = m :: ms) :
    s.marks.drop (i + 1) = ms := by
  have hsplit : s.marks.drop i = [m] ++ ms := h
  exact drop_append hsplit

theorem length_of_drop (hs : s.Even) {ms : List Mark} (h : s.marks.drop i = ms)
    (hi : i ≤ s.length) : s.length = i + ms.length := by
  rw [← h, List.length_drop, marks_length hs]
  omega

theorem lt_of_drop (hs : s.Even) {m : Mark} {ms : List Mark} (h : s.marks.drop i = m :: ms) :
    i < s.length := by
  by_contra hi
  rw [List.drop_eq_nil_of_le (by rw [marks_length hs]; omega)] at h
  simp at h

theorem mark_of_drop (hs : s.Even) {m : Mark} {ms : List Mark} (h : s.marks.drop i = m :: ms) :
    s.line i = m.1 ∧ s.reading i = m.2 := by
  have hi : i < s.marks.length := by
    rw [marks_length hs]
    exact lt_of_drop hs h
  rw [List.drop_eq_getElem_cons hi] at h
  obtain ⟨hm, -⟩ := List.cons.inj h
  have hlen : s.lines.length = s.readings.length := hs
  have hr : i < s.readings.length := by simpa [marks, hlen] using hi
  have hl : i < s.lines.length := by omega
  rw [← hm]
  simp [marks, line, reading, hl, hr]

theorem reading_of_drop (hs : s.Even) {m : Mark} {ms : List Mark}
    (h : s.marks.drop i = m :: ms) : s.reading i = m.2 := (mark_of_drop hs h).2

theorem reading_within (hs : s.Even) {ms ns : List Mark} (h : s.marks.drop i = ms ++ ns)
    {j : Nat} (hi : i ≤ j) (hj : j < i + ms.length) : ∃ m ∈ ms, s.reading j = m.2 := by
  have hk : j - i < ms.length := by omega
  have hdrop : s.marks.drop j = ms[j - i] :: (ms.drop (j - i + 1) ++ ns) := by
    have hskip : s.marks.drop j = (s.marks.drop i).drop (j - i) := by
      rw [List.drop_drop, Nat.add_sub_of_le hi]
    rw [hskip, h, List.drop_append_of_le_length (Nat.le_of_lt hk), List.drop_eq_getElem_cons hk,
      List.cons_append]
  exact ⟨_, List.getElem_mem hk, reading_of_drop hs hdrop⟩

theorem exists_line_of_mem (hs : s.Even) {ms ns : List Mark} (h : s.marks.drop i = ms ++ ns)
    {m : Mark} (hm : m ∈ ms) : ∃ j, i ≤ j ∧ j < i + ms.length ∧ s.reading j = m.2 := by
  obtain ⟨a, b, rfl⟩ := List.append_of_mem hm
  have hdrop : s.marks.drop (i + a.length) = m :: (b ++ ns) := by
    apply drop_append
    simpa using h
  exact ⟨i + a.length, Nat.le_add_right i _, by simp, reading_of_drop hs hdrop⟩

theorem reading_of_le (h : s.length ≤ i) : s.reading i = .blank := by
  have hnone : s.readings[i]? = none := List.getElem?_eq_none h
  simp [reading, hnone]

section Stretch

variable (hs : s.Even) {P : Reading → Prop} {ms ns : List Mark}
include hs

theorem forall_within (h : s.marks.drop i = ms ++ ns) (hP : ∀ m ∈ ms, P m.2) (j : Nat)
    (hi : i ≤ j) (hj : j < i + ms.length) : P (s.reading j) := by
  obtain ⟨m, hm, hr⟩ := reading_within hs h hi hj
  rw [hr]
  exact hP m hm

theorem forall_onward (h : s.marks.drop i = ms) (hP : ∀ m ∈ ms, P m.2) (hblank : P .blank)
    (j : Nat) (hi : i ≤ j) : P (s.reading j) := by
  by_cases hj : j < s.length
  · have hlen := length_of_drop hs h (by omega)
    have hall : s.marks.drop i = ms ++ [] := by simpa using h
    exact forall_within hs hall hP j hi (by omega)
  · rw [reading_of_le (by omega)]
    exact hblank

theorem blank_within (h : s.marks.drop i = ms ++ ns) (hm : Blanks ms) :
    ∀ j, i ≤ j → j < i + ms.length → s.reading j = .blank :=
  forall_within hs (P := fun r => r = .blank) h hm

theorem blank_onward (h : s.marks.drop i = ms) (hm : Blanks ms) :
    ∀ j, i ≤ j → s.reading j = .blank :=
  forall_onward hs (P := fun r => r = .blank) h hm rfl

theorem notes_within (h : s.marks.drop i = ms ++ ns) (hm : Notes ms) :
    ∀ j, i ≤ j → j < i + ms.length → s.reading j = .comment ∨ s.reading j = .blank :=
  forall_within hs (P := fun r => r = .comment ∨ r = .blank) h hm

theorem notes_onward (h : s.marks.drop i = ms) (hm : Notes ms) :
    ∀ j, i ≤ j → s.reading j = .comment ∨ s.reading j = .blank :=
  forall_onward hs (P := fun r => r = .comment ∨ r = .blank) h hm (Or.inr rfl)

theorem undeclared_within (h : s.marks.drop i = ms ++ ns) (hm : Undeclared ms) :
    ∀ j, i ≤ j → j < i + ms.length → ∀ kind, s.reading j ≠ .declaration kind :=
  forall_within hs (P := fun r => ∀ kind, r ≠ .declaration kind) h hm

theorem undeclared_onward (h : s.marks.drop i = ms) (hm : Undeclared ms) :
    ∀ j, i ≤ j → ∀ kind, s.reading j ≠ .declaration kind :=
  forall_onward hs (P := fun r => ∀ kind, r ≠ .declaration kind) h hm (by simp)

end Stretch

theorem slice_of_drop {ms ns : List Mark} (h : s.marks.drop i = ms ++ ns) :
    s.slice i (i + ms.length) = ms := by
  have hzip : s.slice i (i + ms.length) = (s.marks.drop i).take ms.length := by
    simp [slice, marks, List.zip_eq_zipWith, List.drop_zipWith, List.take_zipWith]
  rw [hzip, h, List.take_left]

theorem filled?_of_le {stop : Nat} (h : stop ≤ i) : s.filled? i stop = none := by
  simp [filled?, Nat.sub_eq_zero_of_le h]

theorem filled?_step {stop : Nat} (h : i < stop) :
    s.filled? i stop = if s.isBlankAt i then s.filled? (i + 1) stop else some i := by
  have hn : stop - i = stop - (i + 1) + 1 := by omega
  rw [filled?, hn, List.range'_succ, List.find?_cons]
  cases s.isBlankAt i <;> simp [filled?]

theorem filled?_blanks (hs : s.Even) {bs ns : List Mark} (h : s.marks.drop i = bs ++ ns)
    (hb : Blanks bs) : s.filled? i (i + bs.length) = none := by
  induction bs generalizing i with
  | nil => exact filled?_of_le (by simp)
  | cons b bs ih =>
    have hr : s.reading i = .blank := by
      rw [reading_of_drop hs h]
      exact hb b (by simp)
    have hrest := ih (drop_cons h) (fun m hm => hb m (by simp [hm]))
    rw [filled?_step (by simp)]
    simpa [isBlankAt, hr, Nat.add_comm, Nat.add_left_comm] using hrest

theorem filled?_found (hs : s.Even) {bs ns : List Mark} {m : Mark} {stop : Nat}
    (h : s.marks.drop i = bs ++ m :: ns) (hb : Blanks bs) (hm : m.2 ≠ .blank)
    (hstop : i + bs.length < stop) : s.filled? i stop = some (i + bs.length) := by
  induction bs generalizing i with
  | nil =>
    rw [filled?_step (by simpa using hstop)]
    simp [isBlankAt, reading_of_drop hs h, hm]
  | cons b bs ih =>
    have hr : s.reading i = .blank := by
      rw [reading_of_drop hs h]
      exact hb b (by simp)
    simp only [List.length_cons] at hstop
    have hrest := ih (drop_cons h) (fun m hm => hb m (by simp [hm])) (by omega)
    rw [filled?_step (by omega)]
    simpa [isBlankAt, hr, Nat.add_comm, Nat.add_left_comm] using hrest

theorem withoutBlanks_of_le {least : Nat} (h : i ≤ least) : s.withoutBlanks least i = i := by
  cases i with
  | zero => rfl
  | succ i => simp [withoutBlanks, show ¬ least ≤ i by omega]

theorem withoutBlanks_filled (least : Nat) (h : s.reading i ≠ .blank) :
    s.withoutBlanks least (i + 1) = i + 1 := by
  simp [withoutBlanks, isBlankAt, h]

theorem withoutBlanks_blanks {least : Nat} (hi : least ≤ i) (n : Nat)
    (h : ∀ j, i ≤ j → j < i + n → s.reading j = .blank) :
    s.withoutBlanks least (i + n) = s.withoutBlanks least i := by
  induction n with
  | zero => rfl
  | succ n ih =>
    have hr := h (i + n) (by omega) (by omega)
    rw [← Nat.add_assoc, withoutBlanks]
    simp only [isBlankAt, hr, show least ≤ i + n by omega]
    simpa [Reading.isBlank] using ih fun j hj hjn => h j hj (by omega)

theorem withoutBlanks_of_drop (hs : s.Even) (least : Nat) {ms bs ns : List Mark}
    (h : s.marks.drop i = ms ++ (bs ++ ns)) (hb : Blanks bs) (hm : EndsFilled ms)
    (hl : least ≤ i + ms.length) (hleast : ms = [] → i ≤ least) :
    s.withoutBlanks least (i + (ms.length + bs.length)) = i + ms.length := by
  rw [← Nat.add_assoc, withoutBlanks_blanks hl bs.length (blank_within hs (drop_append h) hb)]
  rcases List.eq_nil_or_concat ms with rfl | ⟨init, m, rfl⟩
  · exact withoutBlanks_of_le (by simpa using hleast rfl)
  · have hlast : s.marks.drop (i + init.length) = m :: (bs ++ ns) := by
      apply drop_append
      simpa using h
    have hfilled := withoutBlanks_filled least (i := i + init.length) (s := s)
      (by rw [reading_of_drop hs hlast]; exact hm m (by simp))
    simpa [Nat.add_assoc] using hfilled

theorem commentsBefore_floor (floor found : Nat) : s.commentsBefore floor found floor = found := by
  cases floor <;> simp [commentsBefore]

theorem commentsBefore_blanks (floor : Nat) (hi : floor ≤ i) (found n : Nat)
    (h : ∀ j, i ≤ j → j < i + n → s.reading j = .blank) :
    s.commentsBefore floor found (i + n) = s.commentsBefore floor found i := by
  induction n with
  | zero => rfl
  | succ n ih =>
    have hr := h (i + n) (by omega) (by omega)
    rw [← Nat.add_assoc, commentsBefore, if_neg (by omega), hr]
    exact ih fun j hj hjn => h j hj (by omega)

/-- The walk back over comments and blank lines ends at the first comment. -/
theorem commentsBefore_notes (floor : Nat) (hi : floor ≤ i) (found n : Nat)
    (hc : s.reading i = .comment)
    (h : ∀ j, i < j → j < i + 1 + n → s.reading j = .comment ∨ s.reading j = .blank) :
    s.commentsBefore floor found (i + 1 + n) = s.commentsBefore floor i i := by
  induction n generalizing found with
  | zero =>
    rw [Nat.add_zero, commentsBefore, if_neg (by omega), hc]
  | succ n ih =>
    have hrest (j : Nat) (hj : i < j) (hjn : j < i + 1 + n) :
        s.reading j = .comment ∨ s.reading j = .blank := h j hj (by omega)
    rw [← Nat.add_assoc, commentsBefore, if_neg (by omega)]
    rcases h (i + 1 + n) (by omega) (by omega) with hr | hr
    · rw [hr]
      exact ih _ hrest
    · rw [hr]
      exact ih _ hrest

theorem commentsBefore_solid {floor : Nat} (found : Nat) (h : (s.reading i).isSolid = true) :
    s.commentsBefore floor found (i + 1) = found := by
  obtain ⟨hc, hb⟩ := (isSolid_iff _).mp h
  rw [commentsBefore]
  split
  · rfl
  · split <;> simp_all

theorem lt_commentsBefore (floor : Nat) {j : Nat} (hsolid : (s.reading j).isSolid = true) (found k : Nat)
    (hj : j < k) (hf : j < found) : j < s.commentsBefore floor found k := by
  obtain ⟨hc, hb⟩ := (isSolid_iff _).mp hsolid
  induction k generalizing found with
  | zero => omega
  | succ k ih =>
    rw [commentsBefore]
    split
    · exact hf
    · by_cases hk : j = k
      · subst hk
        split <;> simp_all
      · split
        · exact ih k (by omega) (by omega)
        · exact ih found (by omega) hf
        · exact hf

theorem attachedFrom_notes (hs : s.Even) {gap lead ns : List Mark}
    (h : s.marks.drop i = gap ++ (lead ++ ns)) (hg : Blanks gap) (hl : Notes lead)
    (hf : BeginsFilled lead) :
    s.attachedFrom (i + (gap.length + lead.length)) i = i + gap.length := by
  have hlead := drop_append h
  have hgap (found : Nat) : s.commentsBefore i found (i + gap.length) = found := by
    rw [commentsBefore_blanks i (Nat.le_refl i) found gap.length (blank_within hs h hg),
      commentsBefore_floor]
  rw [attachedFrom]
  cases lead with
  | nil => exact hgap _
  | cons m lead =>
    have hm : m.2 = .comment := (hl m (by simp)).resolve_right (by simpa using hf)
    have hwalk := commentsBefore_notes (s := s) (i := i + gap.length) i (by omega)
      (i + (gap.length + (m :: lead).length)) lead.length
      (by rw [reading_of_drop hs hlead]; exact hm)
      (fun j hj hjn => notes_within hs hlead hl j (by omega) (by simp; omega))
    have hlen : i + (gap.length + (m :: lead).length) = i + gap.length + 1 + lead.length := by
      simp
      omega
    rw [hlen] at hwalk ⊢
    rw [hwalk, hgap]

theorem lt_attachedFrom (hs : s.Even) {gap lead ns : List Mark}
    (h : s.marks.drop i = gap ++ (lead ++ ns)) (hl : ¬ Notes lead) :
    i + gap.length < s.attachedFrom (i + (gap.length + lead.length)) i := by
  obtain ⟨m, hm, hsolid⟩ : ∃ m ∈ lead, m.2.isSolid = true := by
    simpa [Notes, isSolid_iff] using hl
  obtain ⟨j, hj, hlt, hr⟩ := exists_line_of_mem hs (drop_append h) hm
  have hbelow := lt_commentsBefore i (hr ▸ hsolid) (i + (gap.length + lead.length))
    (i + (gap.length + lead.length)) (by omega) (by omega)
  exact Nat.lt_of_le_of_lt hj hbelow

theorem tailFrom_of_drop (hs : s.Even) {head : Nat} (hhead : head < s.length)
    {body gap tail after : List Mark}
    (h : s.marks.drop (head + 1) = body ++ (gap ++ (tail ++ after))) (hbody : EndsSolid body)
    (hg : Blanks gap) (ht : Notes tail) (hf : BeginsFilled tail) (ha : Blanks after) :
    s.tailFrom head =
      if tail = [] then s.length else head + 1 + (body.length + gap.length) := by
  -- On its way back the walk passes the gap and stops at the solid line that ends the body.
  have hgap (found : Nat) :
      s.commentsBefore (head + 1) found (head + 1 + body.length + gap.length) = found := by
    rw [commentsBefore_blanks (head + 1) (by omega) found gap.length
      (blank_within hs (drop_append h) hg)]
    rcases List.eq_nil_or_concat body with rfl | ⟨init, m, rfl⟩
    · exact commentsBefore_floor _ _
    · have hlast : s.marks.drop (head + 1 + init.length) = m :: (gap ++ (tail ++ after)) := by
        apply drop_append
        simpa using h
      have hsolid : (s.reading (head + 1 + init.length)).isSolid = true := by
        rw [reading_of_drop hs hlast]
        exact hbody m (by simp)
      simpa [Nat.add_assoc] using commentsBefore_solid found hsolid
  have hgapped := drop_append (drop_append h)
  have hlen := length_of_drop hs h (by omega)
  rw [tailFrom]
  cases tail with
  | nil =>
    have hall : s.marks.drop (head + 1 + body.length + gap.length) = after ++ [] := by
      simpa using hgapped
    have hafter := commentsBefore_blanks (s := s) (i := head + 1 + body.length + gap.length)
      (head + 1) (by omega) s.length after.length (blank_within hs hall ha)
    have hstop : head + 1 + body.length + gap.length + after.length = s.length := by
      simp at hlen
      omega
    rw [hstop] at hafter
    rw [hafter, hgap, if_pos rfl]
  | cons m tail =>
    have hm : m.2 = .comment := (ht m (by simp)).resolve_right (by simpa using hf)
    have hall : s.marks.drop (head + 1 + body.length + gap.length) =
        m :: (tail ++ after) ++ [] := by
      simpa using hgapped
    have hwalk := commentsBefore_notes (s := s) (i := head + 1 + body.length + gap.length)
      (head + 1) (by omega) s.length (tail ++ after).length
      (by rw [reading_of_drop hs hgapped]; exact hm)
      (by
        intro j hj hjn
        have hnotes : Notes (m :: (tail ++ after)) := by
          rw [← List.cons_append]
          exact (notes_append _ _).mpr ⟨ht, ha.notes⟩
        exact notes_within hs hall hnotes j (by omega) (by simp at hjn ⊢; omega))
    have hstop : head + 1 + body.length + gap.length + 1 + (tail ++ after).length = s.length := by
      simp at hlen ⊢
      omega
    rw [hstop] at hwalk
    rw [hwalk, hgap, if_neg (by simp)]
    omega

end ScriptOrder.Script
