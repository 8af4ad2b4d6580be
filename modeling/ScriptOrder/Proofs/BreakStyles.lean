import Mathlib.Data.List.Basic
import ScriptOrder.Proofs.Restyling

/-!
# The breaks of a text

A text read from left to right is a list of signs, each a line break or another
character, and a CR is one break together with an LF after it. Unifying and
restyling keep the signs and write all breaks in one style, so a text whose breaks
have one style is got back from its unified form.
-/

set_option autoImplicit false

namespace ScriptOrder.Lines

inductive Break where
  | crlf
  | cr
  | lf
deriving DecidableEq, Repr

def Break.text : Break → Text
  | .crlf => ['\r', '\n']
  | .cr => ['\r']
  | .lf => ['\n']

inductive Sign where
  | letter (c : Char)
  | ending (b : Break)
deriving DecidableEq, Repr

namespace Sign

def text : Sign → Text
  | .letter c => [c]
  | .ending b => b.text

def unified : Sign → Char
  | .letter c => c
  | .ending _ => '\n'

def break? : Sign → Option Break
  | .letter _ => none
  | .ending b => some b

def withBreak (b : Break) : Sign → Sign
  | .letter c => .letter c
  | .ending _ => .ending b

end Sign

def signs : Text → List Sign
  | [] => []
  | '\r' :: '\n' :: rest => .ending .crlf :: signs rest
  | '\r' :: rest => .ending .cr :: signs rest
  | '\n' :: rest => .ending .lf :: signs rest
  | c :: rest => .letter c :: signs rest

def spell (ss : List Sign) : Text := ss.flatMap Sign.text

/-- Signs that are read as they are written: no break passes for a letter, and no
two breaks for one. -/
def Legible : List Sign → Prop
  | [] => True
  | .letter c :: ss => c ≠ '\r' ∧ c ≠ '\n' ∧ Legible ss
  | .ending .cr :: ss => ss.head? ≠ some (.ending .lf) ∧ Legible ss
  | .ending .crlf :: ss => Legible ss
  | .ending .lf :: ss => Legible ss

def breaks (t : Text) : List Break := (signs t).filterMap Sign.break?

def Uniform (b : Break) (t : Text) : Prop := ∀ x ∈ breaks t, x = b

instance (b : Break) (t : Text) : Decidable (Uniform b t) :=
  inferInstanceAs (Decidable (∀ x ∈ breaks t, x = b))

def withBreaks (b : Break) (t : Text) : Text := spell ((signs t).map (Sign.withBreak b))

def style (before : Text) : Break := if hasPair before then .crlf else .lf

variable {b : Break} {c : Char} {s : Sign} {ss : List Sign} {t : Text}

theorem signs_cr (h : ∀ u, t ≠ '\n' :: u) : signs ('\r' :: t) = .ending .cr :: signs t := by
  rw [signs]
  exact h

theorem signs_letter (hcr : c ≠ '\r') (hlf : c ≠ '\n') :
    signs (c :: t) = .letter c :: signs t := by
  rw [signs]
  · exact fun _ hc _ => hcr hc
  · exact hcr
  · exact hlf

theorem spell_signs (t : Text) : spell (signs t) = t := by
  induction t using signs.induct with
  | case1 => rfl
  | case2 rest ih => simpa [signs, spell, Sign.text, Break.text] using ih
  | case3 rest hpair ih => simpa [signs, spell, Sign.text, Break.text] using ih
  | case4 rest ih => simpa [signs, spell, Sign.text, Break.text] using ih
  | case5 c rest hpair hcr hlf ih => simpa [signs, spell, Sign.text] using ih

theorem legible_signs (t : Text) : Legible (signs t) := by
  induction t using signs.induct with
  | case1 => trivial
  | case2 rest ih => simpa [signs, Legible] using ih
  | case3 rest hpair ih =>
    rw [signs_cr hpair]
    refine ⟨fun hhead => ?_, ih⟩
    obtain ⟨ss, hss⟩ := List.head?_eq_some_iff.mp hhead
    have hrest : rest = '\n' :: spell ss := by
      rw [← spell_signs rest, hss]
      rfl
    exact hpair _ hrest
  | case4 rest ih => simpa [signs, Legible] using ih
  | case5 c rest hpair hcr hlf ih =>
    rw [signs_letter hcr hlf]
    exact ⟨hcr, hlf, ih⟩

theorem Legible.tail (h : Legible (s :: ss)) : Legible ss := by
  match s with
  | .letter _ => exact h.2.2
  | .ending .crlf => exact h
  | .ending .cr => exact h.2
  | .ending .lf => exact h

theorem Legible.letter_ne (h : Legible ss) (hc : .letter c ∈ ss) : c ≠ '\n' := by
  induction ss with
  | nil => simp at hc
  | cons s ss ih =>
    rcases List.mem_cons.mp hc with rfl | hmem
    · exact h.2.1
    · exact ih h.tail hmem

theorem Legible.spell_ne (h : Legible ss) (hhead : ss.head? ≠ some (.ending .lf)) (u : Text) :
    spell ss ≠ '\n' :: u := by
  intro hspell
  match ss with
  | [] => simp [spell] at hspell
  | .letter c :: ss => exact h.2.1 (List.cons.inj hspell).1
  | .ending .crlf :: ss => exact absurd (List.cons.inj hspell).1 (by decide)
  | .ending .cr :: ss => exact absurd (List.cons.inj hspell).1 (by decide)
  | .ending .lf :: ss => exact hhead rfl

theorem signs_spell (h : Legible ss) : signs (spell ss) = ss := by
  induction ss with
  | nil => rfl
  | cons s ss ih =>
    match s with
    | .letter c =>
      obtain ⟨hcr, hlf, hss⟩ := h
      calc signs (c :: spell ss) = .letter c :: signs (spell ss) := signs_letter hcr hlf
        _ = .letter c :: ss := by rw [ih hss]
    | .ending .crlf => exact congrArg (Sign.ending .crlf :: ·) (ih h)
    | .ending .cr =>
      obtain ⟨hhead, hss⟩ := h
      calc signs ('\r' :: spell ss) = .ending .cr :: signs (spell ss) :=
            signs_cr (hss.spell_ne hhead)
        _ = .ending .cr :: ss := by rw [ih hss]
    | .ending .lf => exact congrArg (Sign.ending .lf :: ·) (ih h)

theorem signs_eq_iff (t : Text) (ss : List Sign) : signs t = ss ↔ Legible ss ∧ spell ss = t := by
  constructor
  · rintro rfl
    exact ⟨legible_signs t, spell_signs t⟩
  · rintro ⟨hss, rfl⟩
    exact signs_spell hss

theorem joinPairs_cr (h : ∀ u, t ≠ '\n' :: u) : joinPairs ('\r' :: t) = '\r' :: joinPairs t := by
  rw [joinPairs]
  exact fun u _ => h u

theorem unify_signs (t : Text) : unify t = (signs t).map Sign.unified := by
  induction t using signs.induct with
  | case1 => rfl
  | case2 rest ih => simpa [unify, joinPairs, signs, Sign.unified] using ih
  | case3 rest hpair ih =>
    rw [unify, joinPairs_cr hpair, signs_cr hpair]
    exact congrArg ('\n' :: ·) ih
  | case4 rest ih => simpa [unify, joinPairs, signs, Sign.unified] using ih
  | case5 c rest hpair hcr hlf ih =>
    have hreturn : c ≠ '\r' := hcr
    simpa [unify, joinPairs, signs, Sign.unified, hreturn] using ih

/-- The first CR is a break of its own, though the joined pair leaves an LF after it. -/
example : joinPairs "\r\r\n".toList = "\r\n".toList ∧ unify "\r\r\n".toList = "\n\n".toList := by
  decide

theorem Legible.withBreak (h : Legible ss) : Legible (ss.map (Sign.withBreak b)) := by
  induction ss with
  | nil => trivial
  | cons s ss ih =>
    cases s with
    | letter c => exact ⟨h.1, h.2.1, ih h.tail⟩
    | ending x =>
      cases b with
      | crlf => exact ih h.tail
      | cr =>
        refine ⟨?_, ih h.tail⟩
        rcases ss with _ | ⟨s, ss⟩
        · simp
        · cases s <;> simp [Sign.withBreak]
      | lf => exact ih h.tail

theorem signs_withBreaks (b : Break) (t : Text) :
    signs (withBreaks b t) = (signs t).map (Sign.withBreak b) :=
  signs_spell (legible_signs t).withBreak

theorem uniform_withBreaks (b : Break) (t : Text) : Uniform b (withBreaks b t) := by
  intro x hx
  rw [breaks, signs_withBreaks, List.filterMap_map] at hx
  obtain ⟨s, -, hs⟩ := List.mem_filterMap.mp hx
  cases s with
  | letter c => simp [Sign.withBreak, Sign.break?] at hs
  | ending y => exact (Option.some.inj hs).symm

theorem Uniform.withBreaks_eq (h : Uniform b t) : withBreaks b t = t := by
  have hsame : (signs t).map (Sign.withBreak b) = signs t := by
    conv_rhs => rw [← List.map_id (signs t)]
    refine List.map_congr_left fun s hs => ?_
    cases s with
    | letter c => rfl
    | ending x =>
      have hx : x = b := h x (List.mem_filterMap.mpr ⟨_, hs, rfl⟩)
      rw [hx]
      rfl
  rw [withBreaks, hsame, spell_signs]

theorem unify_eq_withBreaks (t : Text) : unify t = withBreaks .lf t := by
  have htext (s : Sign) : (s.withBreak .lf).text = [s.unified] := by cases s <;> rfl
  rw [unify_signs, withBreaks, spell, List.flatMap_map]
  simp only [htext]
  exact List.map_eq_flatMap

theorem restyle_unify (before t : Text) : restyle before (unify t) = withBreaks (style before) t := by
  rw [restyle, style]
  split
  · rw [unify_signs, withBreaks, spell, List.flatMap_map, List.flatMap_map]
    refine List.flatMap_congr fun s hs => ?_
    cases s with
    | letter c =>
      have hc := (legible_signs t).letter_ne hs
      simp [Sign.unified, Sign.withBreak, Sign.text, hc]
    | ending x => rfl
  · exact unify_eq_withBreaks t

theorem hasPair_cons (h : ∀ u, c = '\r' → t ≠ '\n' :: u) : hasPair (c :: t) = hasPair t := by
  rw [hasPair]
  exact h

theorem hasPair_iff_mem (t : Text) : hasPair t = true ↔ .crlf ∈ breaks t := by
  induction t using signs.induct with
  | case1 => simp [hasPair, breaks, signs]
  | case2 rest ih => simp [hasPair, breaks, signs, Sign.break?]
  | case3 rest hpair ih =>
    rw [hasPair_cons fun u _ => hpair u, ih, breaks, breaks, signs_cr hpair]
    simp [Sign.break?]
  | case4 rest ih => simpa [hasPair, breaks, signs, Sign.break?] using ih
  | case5 c rest hpair hcr hlf ih => simpa [hasPair, breaks, signs, Sign.break?] using ih

theorem hasPair_iff_within (t : Text) : hasPair t = true ↔ ['\r', '\n'] <:+: t := by
  induction t using hasPair.induct with
  | case1 => simp [hasPair]
  | case2 rest => simp [hasPair, List.infix_cons_iff]
  | case3 c rest hpair ih =>
    have hfront : ¬ ['\r', '\n'] <+: c :: rest := by
      rintro ⟨u, hu⟩
      obtain ⟨hc, hrest⟩ := List.cons.inj hu
      exact hpair u hc.symm hrest.symm
    rw [hasPair_cons hpair, ih, List.infix_cons_iff, or_iff_right hfront]

theorem style_pair (h : ['\r', '\n'] <:+: t) : style t = .crlf := by
  rw [style, if_pos ((hasPair_iff_within t).mpr h)]

theorem style_unpaired (h : ¬ ['\r', '\n'] <:+: t) : style t = .lf := by
  rw [style, if_neg (mt (hasPair_iff_within t).mp h)]

theorem uniform_style (h : Uniform .crlf t ∨ Uniform .lf t) : Uniform (style t) t := by
  rw [style]
  split
  · rename_i hpair
    rcases h with h | h
    · exact h
    · exact absurd (h _ ((hasPair_iff_mem t).mp hpair)) (by decide)
  · rename_i hpair
    rcases h with h | h
    · -- no break at all
      intro x hx
      exact absurd ((hasPair_iff_mem t).mpr (h x hx ▸ hx)) hpair
    · exact h

/-- Unifying reads a text sign by sign and undoes restyling, which leaves breaks of
one style; a text with breaks of one style gets them back. -/
theorem restyling_undone :
    (∀ t ss, signs t = ss ↔ Legible ss ∧ spell ss = t) ∧
    (∀ t, unify t = (signs t).map Sign.unified ∧ unify (unify t) = unify t) ∧
    (∀ before t, '\r' ∉ t → unify (restyle before t) = t ∧
      (['\r', '\n'] <:+: before → Uniform .crlf (restyle before t)) ∧
      (¬ ['\r', '\n'] <:+: before → Uniform .lf (restyle before t))) ∧
    ∀ before, Uniform .crlf before ∨ Uniform .lf before → restyle before (unify before) = before := by
  refine ⟨signs_eq_iff, fun t => ⟨unify_signs t, unify_unify t⟩, fun before t h => ?_, ?_⟩
  · have huniform : Uniform (style before) (restyle before t) := by
      rw [← unify_plain t h, restyle_unify]
      exact uniform_withBreaks _ t
    refine ⟨unify_restyle before h, fun hpair => ?_, fun hpair => ?_⟩
    · rwa [style_pair hpair] at huniform
    · rwa [style_unpaired hpair] at huniform
  · rintro before huniform
    rw [restyle_unify]
    exact (uniform_style huniform).withBreaks_eq

theorem pairedText_restyled :
    '\r' ∉ "b\n\na\n".toList ∧ ['\r', '\n'] <:+: "a\r\nb\n".toList ∧
      unify (restyle "a\r\nb\n".toList "b\n\na\n".toList) = "b\n\na\n".toList ∧
      Uniform .crlf (restyle "a\r\nb\n".toList "b\n\na\n".toList) ∧
    ¬ ['\r', '\n'] <:+: "a\n\rb".toList ∧
      Uniform .lf (restyle "a\n\rb".toList "b\n\na\n".toList) ∧
    Uniform .crlf "a\r\n\r\nb".toList ∧
      restyle "a\r\n\r\nb".toList (unify "a\r\n\r\nb".toList) = "a\r\n\r\nb".toList := by
  have hplain : '\r' ∉ "b\n\na\n".toList := by decide
  have hpair : ['\r', '\n'] <:+: "a\r\nb\n".toList := by decide
  have hunpaired : ¬ ['\r', '\n'] <:+: "a\n\rb".toList := by decide
  have huniform : Uniform .crlf "a\r\n\r\nb".toList := by decide
  obtain ⟨-, -, hrestyled, hback⟩ := restyling_undone
  obtain ⟨hundone, hcrlf, -⟩ := hrestyled "a\r\nb\n".toList _ hplain
  obtain ⟨-, -, hlf⟩ := hrestyled "a\n\rb".toList _ hplain
  exact ⟨hplain, hpair, hundone, hcrlf hpair, hunpaired, hlf hunpaired, huniform,
    hback _ (.inl huniform)⟩

end ScriptOrder.Lines
