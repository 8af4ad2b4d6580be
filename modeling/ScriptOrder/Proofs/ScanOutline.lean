import ScriptOrder.Proofs.Lookup
import ScriptOrder.Proofs.Outline
import ScriptOrder.Scan

/-!
# The scan follows the outline

Scanned from the line where an outline begins, a script yields the blocks and
the remarks of that outline. A state of the scan runs silently over the lines
between two events; the events are the head of a section, the end of a block
and the end of the script.
-/

set_option autoImplicit false

namespace ScriptOrder.Scan
open Marks Script Outline

abbrev Outcome := List Block × List Remark

def Yield.before (y : Yield) (o : Outcome) : Outcome :=
  (y.block.toList ++ o.1, y.remark.toList ++ o.2)

def gathered (ys : List Yield) : Outcome := (ys.filterMap Yield.block, ys.filterMap Yield.remark)

def outcome (s : Script) (state : State) (i : Nat) : Outcome :=
  gathered ((trace s state (linesFrom s i)).map Prod.snd ++ atEnd s (after s state (linesFrom s i)))

variable {s : Script} {state : State} {i : Nat}

theorem outcome_searching (s : Script) (start : Nat) :
    outcome s (.searching start) start = (blocks s start, remarks s start) := rfl

theorem gathered_cons (y : Yield) (ys : List Yield) : gathered (y :: ys) = y.before (gathered ys) := by
  obtain ⟨block, remark⟩ := y
  cases block <;> cases remark <;> rfl

@[simp] theorem nothing_before (o : Outcome) : nothing.before o = o := rfl

theorem linesFrom_cons (h : i < s.length) : linesFrom s i = i :: linesFrom s (i + 1) := by
  have hn : s.length - i = s.length - (i + 1) + 1 := by omega
  rw [linesFrom, hn, List.range'_succ, linesFrom]

theorem linesFrom_nil (h : s.length ≤ i) : linesFrom s i = [] := by
  rw [linesFrom, Nat.sub_eq_zero_of_le h, List.range'_zero]

theorem outcome_step (h : i < s.length) :
    outcome s state i = (step s state i).2.before (outcome s (step s state i).1 (i + 1)) := by
  rw [outcome, linesFrom_cons h, trace, after, List.map_cons, List.cons_append, gathered_cons]
  rfl

theorem outcome_silent (h : i < s.length) {next : State} (hq : step s state i = (next, nothing)) :
    outcome s state i = outcome s next (i + 1) := by
  rw [outcome_step h, hq, nothing_before]

theorem outcome_end (h : s.length ≤ i) : outcome s state i = gathered (atEnd s state) := by
  rw [outcome, linesFrom_nil h, trace, after, List.map_nil, List.nil_append]

def Waiting (floor : Nat) : State → Prop
  | .searching f => f = floor
  | .commenting f _ => f = floor
  | .within _ _ _ => False

theorem step_waiting {floor : Nat} (hw : Waiting floor state)
    (hr : ∀ k, s.reading i ≠ .declaration k) :
    ∃ next, Waiting floor next ∧ step s state i = (next, nothing) := by
  cases state with
  | searching f =>
    cases h : s.reading i with
    | declaration k => exact absurd h (hr k)
    | comment => exact ⟨.commenting f i, hw, by simp [step, h]⟩
    | blank => exact ⟨.searching f, hw, by simp [step, h]⟩
    | body => exact ⟨.searching f, hw, by simp [step, h]⟩
    | code => exact ⟨.searching f, hw, by simp [step, h]⟩
  | commenting f first =>
    refine ⟨.commenting f first, hw, ?_⟩
    cases h : s.reading i with
    | declaration k => exact absurd h (hr k)
    | _ => simp [step, h]
  | within start head kind => exact hw.elim

theorem step_declaration {floor : Nat} (hw : Waiting floor state) {kind : Kind}
    (hr : s.reading i = .declaration kind) :
    step s state i = ((begin s floor i kind).1, ⟨none, (begin s floor i kind).2⟩) := by
  cases state with
  | searching f =>
    obtain rfl : f = floor := hw
    simp [step, hr]
  | commenting f first =>
    obtain rfl : f = floor := hw
    simp [step, hr]
  | within start head kind => exact hw.elim

theorem atEnd_waiting {floor : Nat} (hw : Waiting floor state) :
    atEnd s state = [leftover s floor] := by
  cases state with
  | searching f => rw [atEnd, show f = floor from hw]
  | commenting f first => rw [atEnd, show f = floor from hw]
  | within start head kind => exact hw.elim

theorem outcome_waiting (hs : s.Even) {floor : Nat} (hw : Waiting floor state)
    {ms ns : List Mark} (h : s.marks.drop i = ms ++ ns) (hu : Undeclared ms) :
    ∃ next, Waiting floor next ∧ outcome s state i = outcome s next (i + ms.length) := by
  induction ms generalizing state i with
  | nil => exact ⟨state, hw, rfl⟩
  | cons m ms ih =>
    rw [undeclared_cons] at hu
    obtain ⟨next, hn, hstep⟩ := step_waiting (s := s) (i := i) hw
      (by rw [reading_of_drop hs h]; exact hu.1)
    obtain ⟨last, hl, hout⟩ := ih hn (drop_cons h) hu.2
    refine ⟨last, hl, ?_⟩
    rw [outcome_silent (lt_of_drop hs h) hstep, hout, List.length_cons, Nat.add_right_comm,
      Nat.add_assoc]

theorem begin_section (hs : s.Even) {floor : Nat} {gap lead ns : List Mark} {line : Line}
    {kind : Kind} (h : s.marks.drop floor = gap ++ (lead ++ (line, .declaration kind) :: ns))
    (hg : Blanks gap) (hf : BeginsFilled lead) :
    begin s floor (floor + (gap.length + lead.length)) kind =
      (.within (floor + gap.length) (floor + (gap.length + lead.length))
          (s.rules.settle kind line),
        if Notes lead then none
        else some ⟨floor + gap.length, .stray (floor + (gap.length + lead.length))⟩) := by
  have hline : s.line (floor + (gap.length + lead.length)) = line := by
    rw [← Nat.add_assoc]
    exact (mark_of_drop hs (drop_append (drop_append h))).1
  by_cases hl : Notes lead
  · have hnone := filled?_blanks hs h hg
    simp only [begin, hline, attachedFrom_notes hs h hg hl hf, hnone, if_pos hl]
  · cases lead with
    | nil => exact absurd notes_nil hl
    | cons m lead =>
      have hlt := lt_attachedFrom hs h hl
      have hfound := filled?_found hs h hg (by simpa using hf) hlt
      simp only [begin, hline, hfound, if_neg hl]

theorem outcome_head (hs : s.Even) {floor : Nat} {gap lead ns : List Mark} {line : Line}
    {kind : Kind} (h : s.marks.drop floor = gap ++ (lead ++ (line, .declaration kind) :: ns))
    (hg : Blanks gap) (hu : Undeclared lead) (hf : BeginsFilled lead) (hw : Waiting floor state)
    (hi : floor ≤ i) (hhead : i ≤ floor + (gap.length + lead.length)) :
    outcome s state i =
      (⟨none, if Notes lead then none
          else some ⟨floor + gap.length, .stray (floor + (gap.length + lead.length))⟩⟩ : Yield).before
        (outcome s (.within (floor + gap.length) (floor + (gap.length + lead.length))
          (s.rules.settle kind line)) (floor + (gap.length + lead.length) + 1)) := by
  have hskip : s.marks.drop i =
      (gap ++ lead).drop (i - floor) ++ (line, .declaration kind) :: ns := by
    have hdrop : s.marks.drop i = (s.marks.drop floor).drop (i - floor) := by
      rw [List.drop_drop, Nat.add_sub_of_le hi]
    rw [hdrop, h, ← List.append_assoc, List.drop_append_of_le_length (by simp; omega)]
  have hquiet : Undeclared ((gap ++ lead).drop (i - floor)) := by
    intro m hm
    rcases List.mem_append.mp (List.mem_of_mem_drop hm) with hm | hm
    · exact hg.notes.undeclared m hm
    · exact hu m hm
  obtain ⟨next, hnext, hout⟩ := outcome_waiting hs hw hskip hquiet
  have hlen : i + ((gap ++ lead).drop (i - floor)).length = floor + (gap.length + lead.length) := by
    simp
    omega
  have hline := drop_append hskip
  rw [hlen] at hline hout
  rw [hout, outcome_step (lt_of_drop hs hline),
    step_declaration hnext (reading_of_drop hs hline), begin_section hs h hg hf]

theorem meetsDeclaration_head {lead ns : List Mark} {line : Line} {kind : Kind} (hl : Notes lead) :
    meetsDeclaration ((lead ++ (line, .declaration kind) :: ns).map Prod.snd) = true := by
  induction lead with
  | nil => rfl
  | cons m lead ih =>
    rw [notes_cons] at hl
    rcases hl.1 with hm | hm <;> simpa [hm, meetsDeclaration] using ih hl.2

theorem meetsDeclaration_notes {ms : List Mark} (h : Notes ms) :
    meetsDeclaration (ms.map Prod.snd) = false := by
  induction ms with
  | nil => rfl
  | cons m ms ih =>
    rw [notes_cons] at h
    rcases h.1 with hm | hm <;> simpa [hm, meetsDeclaration] using ih h.2

theorem meetsDeclaration_solid {ms ns : List Mark} (hu : Undeclared ms) (he : EndsSolid ms)
    (hne : ms ≠ []) : meetsDeclaration ((ms ++ ns).map Prod.snd) = false := by
  induction ms with
  | nil => exact absurd rfl hne
  | cons m ms ih =>
    rw [undeclared_cons] at hu
    have hrest (hm : m.2 = .comment ∨ m.2 = .blank) :
        meetsDeclaration ((ms ++ ns).map Prod.snd) = false := by
      cases ms with
      | nil =>
        have hsolid := (isSolid_iff m.2).mp ((endsSolid_singleton m).mp he)
        rcases hm with hm | hm
        · exact absurd hm hsolid.1
        · exact absurd hm hsolid.2
      | cons n ms => exact ih hu.2 ((endsSolid_cons_cons m n ms).mp he) (by simp)
    cases hm : m.2 with
    | declaration k => exact absurd hm (hu.1 k)
    | comment => simpa [hm, meetsDeclaration] using hrest (Or.inl hm)
    | blank => simpa [hm, meetsDeclaration] using hrest (Or.inr hm)
    | body => simp [hm, meetsDeclaration]
    | code => simp [hm, meetsDeclaration]

theorem meetsDeclarationAt_of_drop (hs : s.Even) {ms : List Mark} (h : s.marks.drop i = ms) :
    s.meetsDeclarationAt i = meetsDeclaration (ms.map Prod.snd) := by
  rw [meetsDeclarationAt, readings_drop hs, h]

theorem step_within_silent {start head : Nat} {kind : Kind}
    (hr : ∀ k, s.reading i ≠ .declaration k)
    (hc : s.reading i = .comment → s.meetsDeclarationAt i = false) :
    step s (.within start head kind) i = (.within start head kind, nothing) := by
  cases h : s.reading i with
  | declaration k => exact absurd h (hr k)
  | comment => simp [step, h, hc h]
  | _ => simp [step, h]

theorem outcome_passes (hs : s.Even) {start head : Nat} {kind : Kind} {ms ns : List Mark}
    (h : s.marks.drop i = ms ++ ns) (hu : Undeclared ms)
    (hc : ∀ a m b, ms = a ++ m :: b → m.2 = .comment →
      meetsDeclaration ((m :: b ++ ns).map Prod.snd) = false) :
    outcome s (.within start head kind) i =
      outcome s (.within start head kind) (i + ms.length) := by
  induction ms generalizing i with
  | nil => rfl
  | cons m ms ih =>
    rw [undeclared_cons] at hu
    have hr := reading_of_drop hs h
    have hstep : step s (.within start head kind) i = (.within start head kind, nothing) :=
      step_within_silent (by rw [hr]; exact hu.1)
        fun hm => by rw [meetsDeclarationAt_of_drop hs h]; exact hc [] m ms rfl (hr ▸ hm)
    rw [outcome_silent (lt_of_drop hs h) hstep,
      ih (drop_cons h) hu.2 fun a n b hab => hc (m :: a) n b (by rw [hab, List.cons_append]),
      List.length_cons, Nat.add_right_comm, Nat.add_assoc]

theorem outcome_body (hs : s.Even) {start head : Nat} {kind : Kind} {body ns : List Mark}
    (h : s.marks.drop i = body ++ ns) (hu : Undeclared body) (he : EndsSolid body) :
    outcome s (.within start head kind) i =
      outcome s (.within start head kind) (i + body.length) := by
  apply outcome_passes hs h hu
  rintro a m b rfl -
  exact meetsDeclaration_solid ((undeclared_append _ _).mp hu).2
    ((endsSolid_append (by simp)).mp he) (by simp)

theorem outcome_blanks (hs : s.Even) {start head : Nat} {kind : Kind} {gap ns : List Mark}
    (h : s.marks.drop i = gap ++ ns) (hg : Blanks gap) :
    outcome s (.within start head kind) i =
      outcome s (.within start head kind) (i + gap.length) := by
  apply outcome_passes hs h hg.notes.undeclared
  rintro a m b rfl hm
  simp [hg m (by simp)] at hm

theorem outcome_notes (hs : s.Even) {start head : Nat} {kind : Kind} {ms : List Mark}
    (h : s.marks.drop i = ms) (hn : Notes ms) :
    outcome s (.within start head kind) i =
      outcome s (.within start head kind) (i + ms.length) := by
  have hall : s.marks.drop i = ms ++ [] := by simpa using h
  apply outcome_passes hs hall hn.undeclared
  rintro a m b rfl -
  rw [List.append_nil]
  exact meetsDeclaration_notes ((notes_append _ _).mp hn).2

theorem outcome_next (hs : s.Even) (start head : Nat) (kind : Kind) {next : Kind} {lead ns : List Mark}
    {line : Line} (h : s.marks.drop i = lead ++ (line, .declaration next) :: ns)
    (hl : Notes lead) (hf : BeginsFilled lead) :
    outcome s (.within start head kind) i =
      (⟨some (blockTo s start head i kind), none⟩ : Yield).before
        (outcome s (.within i (i + lead.length) (s.rules.settle next line))
          (i + lead.length + 1)) := by
  cases lead with
  | nil =>
    have hr : s.reading i = .declaration next := reading_of_drop hs h
    have hsplit : s.marks.drop i = [] ++ ([] ++ (line, .declaration next) :: ns) := h
    have hbegin := begin_section hs hsplit blanks_nil hf
    simp only [List.length_nil, Nat.add_zero, notes_nil, if_true] at hbegin
    rw [outcome_step (lt_of_drop hs h)]
    simp [step, hr, hbegin]
  | cons m lead =>
    have hm : m.2 = .comment := (hl m (by simp)).resolve_right (by simpa using hf)
    have hr : s.reading i = .comment := by rw [reading_of_drop hs h, hm]
    have hmeets : s.meetsDeclarationAt i = true := by
      rw [meetsDeclarationAt_of_drop hs h]
      exact meetsDeclaration_head hl
    have hwait : Waiting i (.commenting i i) := rfl
    have hsplit : s.marks.drop i = [] ++ (m :: lead ++ (line, .declaration next) :: ns) := h
    have hout := outcome_head hs hsplit blanks_nil hl.undeclared hf hwait (i := i + 1)
      (by omega) (by simp)
    simp only [List.length_nil, Nat.add_zero, Nat.zero_add, if_pos hl] at hout
    rw [outcome_step (lt_of_drop hs h)]
    simp only [step, hr, hmeets, if_true, hout]
    rfl

theorem leftover_of_drop (hs : s.Even) {gap tail after : List Mark}
    (h : s.marks.drop i = gap ++ (tail ++ after)) (hg : Blanks gap) (hb : BeginsFilled tail)
    (he : EndsFilled tail) (ha : Blanks after) :
    gathered [leftover s i] =
      (tailBlocks (i + gap.length) tail, tailRemarks (i + gap.length) tail) := by
  cases tail with
  | nil =>
    have hnone : s.filled? i s.length = none := by
      by_cases hi : i ≤ s.length
      · have hall : s.marks.drop i = (gap ++ after) ++ [] := by simpa using h
        have hlen := length_of_drop hs h hi
        rw [hlen]
        simpa using filled?_blanks hs hall (by simp [hg, ha])
      · exact filled?_of_le (by omega)
    simp [leftover, hnone, gathered, nothing, tailBlocks, tailRemarks]
  | cons m tail =>
    have htail := drop_append h
    have hpos := lt_of_drop hs htail
    have hfound := filled?_found hs h hg (by simpa using hb) hpos
    have hlen := length_of_drop hs htail (by omega)
    have hall : s.marks.drop (i + gap.length) = m :: tail ++ (after ++ []) := by simpa using htail
    have hstop := withoutBlanks_of_drop hs (i + gap.length + 1) hall ha he (by simp) (by simp)
    rw [← List.length_append, ← hlen] at hstop
    simp [leftover, hfound, hstop, gathered, tailBlocks, tailRemarks]

theorem outcome_last (hs : s.Even) {start head : Nat} (hhead : head < s.length) {kind : Kind}
    {body gap tail after : List Mark}
    (h : s.marks.drop (head + 1) = body ++ (gap ++ (tail ++ after))) (hu : Undeclared body)
    (hbody : EndsSolid body) (hg : Blanks gap) (ht : Notes tail) (hb : BeginsFilled tail)
    (he : EndsFilled tail) (ha : Blanks after) :
    outcome s (.within start head kind) (head + 1) =
      (⟨start, head + 1 + body.length, kind⟩ ::
          tailBlocks (head + 1 + body.length + gap.length) tail,
        tailRemarks (head + 1 + body.length + gap.length) tail) := by
  have hnotes : Notes (gap ++ (tail ++ after)) := by simp [hg.notes, ht, ha.notes]
  have hlen := length_of_drop hs h (by omega)
  rw [outcome_body hs h hu hbody, outcome_notes hs (drop_append h) hnotes,
    outcome_end (by rw [hlen, List.length_append]; omega), atEnd,
    tailFrom_of_drop hs hhead h hbody hg ht hb ha, gathered_cons]
  by_cases htail : tail = []
  · subst htail
    have hall : s.marks.drop (head + 1) = body ++ ((gap ++ after) ++ []) := by simpa using h
    have hstop := withoutBlanks_of_drop hs (head + 1) hall (by simp [hg, ha]) hbody.endsFilled
      (by omega) (by simp)
    have hnone : gathered [leftover s s.length] = ([], []) := by
      have hnil : s.marks.drop s.length = [] ++ ([] ++ []) := by simp [← marks_length hs]
      exact leftover_of_drop hs hnil blanks_nil beginsFilled_nil endsFilled_nil blanks_nil
    rw [if_pos rfl, hnone, blockTo]
    rw [show head + 1 + (body.length + (gap ++ after).length) = s.length by simp [hlen]] at hstop
    rw [hstop]
    rfl
  · have hstop := withoutBlanks_of_drop hs (head + 1) h hg hbody.endsFilled (by omega)
      (by simp)
    have hrest : s.marks.drop (head + 1 + body.length + gap.length) = [] ++ (tail ++ after) :=
      drop_append (drop_append h)
    have hleft := leftover_of_drop hs hrest blanks_nil hb he ha
    rw [if_neg htail, blockTo, hstop]
    rw [List.length_nil, Nat.add_zero, Nat.add_assoc _ body.length] at hleft
    rw [hleft, Nat.add_assoc _ body.length]
    rfl

/-- From the body of a block on, the scan yields that block and then those of
the attached sections that follow. -/
theorem outcome_within (hs : s.Even) {gap tail after : List Mark} (hg : Blanks gap)
    (ht : Notes tail) (hb : BeginsFilled tail) (he : EndsFilled tail) (ha : Blanks after)
    (sections : List Section) (hsec : ∀ t ∈ sections, t.Attached) (start : Nat)
    {head : Nat} (kind : Kind) (hhead : head < s.length) {body : List Mark} (hu : Undeclared body)
    (hbody : EndsSolid body)
    (h : s.marks.drop (head + 1) =
      body ++ (sections.flatMap Section.marks ++ (gap ++ (tail ++ after)))) :
    outcome s (.within start head kind) (head + 1) =
      (⟨start, head + 1 + body.length, kind⟩ ::
          blocksOf s.rules gap tail (head + 1 + body.length) sections,
        remarksOf gap tail (head + 1 + body.length) sections) := by
  -- Each section ends the block before it, and is itself a block of which the body is open.
  induction sections generalizing start head kind body with
  | nil => exact outcome_last hs hhead h hu hbody hg ht hb he ha
  | cons t rest ih =>
    have hattached : t.Attached := hsec t (by simp)
    have hmarks : s.marks.drop (head + 1) = body ++ (t.gap ++ (t.lead ++ t.head ::
        (t.body ++ (rest.flatMap Section.marks ++ (gap ++ (tail ++ after)))))) := by
      simpa [Section.marks, Section.rows] using h
    have hgap := drop_append hmarks
    have hlead := drop_append hgap
    have hline := drop_append hlead
    have hnext := outcome_next hs start head kind hlead hattached t.lead_filled
    have hrest := ih (fun u hm => hsec u (by simp [hm])) (head + 1 + body.length + t.gap.length)
      (s.rules.settle t.kind t.line) (lt_of_drop hs hline) t.body_undeclared t.body_solid
      (drop_cons hline)
    have hstop := withoutBlanks_of_drop hs (head + 1) hmarks t.gap_blank
      hbody.endsFilled (by omega) (by simp)
    have hend : head + 1 + body.length + t.gap.length + t.lead.length + 1 + t.body.length =
        head + 1 + body.length + t.marks.length := by
      simp [Section.marks, Section.rows]
      omega
    rw [outcome_body hs hmarks hu hbody, outcome_blanks hs hgap t.gap_blank, hnext, hrest, blockTo,
      Nat.add_assoc _ body.length, hstop, ← Nat.add_assoc _ body.length, hend]
    simp [Yield.before, blocksOf, remarksOf, Section.blockAt, Section.remarksAt, Section.settled,
      hattached]

/-- The scan yields what the outline tells, from any line on. -/
theorem outcome_outline (hs : s.Even) (o : Outline) (h : s.marks.drop i = o.marks) :
    outcome s (.searching i) i = (o.blocks s.rules i, o.remarks i) := by
  have hwait : Waiting i (.searching i) := rfl
  obtain ⟨sections, gap, tail, after, attached, hg, ha, hu, hb, he, hnotes⟩ := o
  cases sections with
  | nil =>
    have hmarks : s.marks.drop i = gap ++ (tail ++ after) := by simpa [Outline.marks] using h
    have hall : s.marks.drop i = (gap ++ (tail ++ after)) ++ [] := by simpa using hmarks
    obtain ⟨next, hnext, hout⟩ := outcome_waiting hs hwait hall
      (by simp [hg.notes.undeclared, hu, ha.notes.undeclared])
    have hend : s.length ≤ i + (gap ++ (tail ++ after)).length := by
      have hlen := congrArg List.length hmarks
      rw [List.length_drop, marks_length hs] at hlen
      omega
    rw [hout, outcome_end hend, atEnd_waiting hnext, leftover_of_drop hs hmarks hg hb he ha]
    rfl
  | cons t rest =>
    have hmarks : s.marks.drop i = t.gap ++ (t.lead ++ t.head ::
        (t.body ++ (rest.flatMap Section.marks ++ (gap ++ (tail ++ after))))) := by
      simpa [Outline.marks, Section.marks, Section.rows] using h
    have hline := drop_append (drop_append hmarks)
    rw [Nat.add_assoc] at hline
    have hhead := outcome_head hs hmarks t.gap_blank t.lead_undeclared t.lead_filled hwait
      (Nat.le_refl i) (by omega)
    have hrest := outcome_within hs hg (hnotes (by simp)) hb he ha rest attached (i + t.gap.length)
      (s.rules.settle t.kind t.line) (lt_of_drop hs hline) t.body_undeclared t.body_solid
      (drop_cons hline)
    have hend : i + (t.gap.length + t.lead.length) + 1 + t.body.length = i + t.marks.length := by
      simp [Section.marks, Section.rows]
      omega
    rw [hhead, hrest, hend]
    by_cases hl : Notes t.lead <;>
      simp [Yield.before, Outline.blocks, Outline.remarks, blocksOf, remarksOf, Section.blockAt,
        Section.remarksAt, Section.settled, Section.headAt, Section.Attached, hl]

theorem blocks_outline (hs : s.Even) (o : Outline) (h : s.marks.drop i = o.marks) :
    blocks s i = o.blocks s.rules i :=
  congrArg Prod.fst ((outcome_searching s i).symm.trans (outcome_outline hs o h))

theorem remarks_outline (hs : s.Even) (o : Outline) (h : s.marks.drop i = o.marks) :
    remarks s i = o.remarks i :=
  congrArg Prod.snd ((outcome_searching s i).symm.trans (outcome_outline hs o h))

end ScriptOrder.Scan
