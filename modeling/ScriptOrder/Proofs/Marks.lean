import Mathlib.Data.List.Basic
import ScriptOrder.Script

/-!
# Marked lines

A mark is a line with its reading. The lists of marks that matter to the
organizer are told apart by what they hold and by how they begin and end.
-/

set_option autoImplicit false

namespace ScriptOrder

abbrev Mark := Line × Reading

def Script.marks (s : Script) : List Mark := s.lines.zip s.readings

namespace Marks

def Blanks (ms : List Mark) : Prop := ∀ m ∈ ms, m.2 = .blank

def Comments (ms : List Mark) : Prop := ∀ m ∈ ms, m.2 = .comment

def Notes (ms : List Mark) : Prop := ∀ m ∈ ms, m.2 = .comment ∨ m.2 = .blank

instance (ms : List Mark) : Decidable (Notes ms) :=
  inferInstanceAs (Decidable (∀ m ∈ ms, m.2 = .comment ∨ m.2 = .blank))

def Undeclared (ms : List Mark) : Prop := ∀ m ∈ ms, ∀ k, m.2 ≠ .declaration k

def BeginsFilled (ms : List Mark) : Prop := ∀ m ∈ ms.head?, m.2 ≠ .blank

def EndsFilled (ms : List Mark) : Prop := ∀ m ∈ ms.getLast?, m.2 ≠ .blank

def BeginsUncommented (ms : List Mark) : Prop := ∀ m ∈ ms.head?, m.2 ≠ .comment

def BeginsUncoded (ms : List Mark) : Prop := ∀ m ∈ ms.head?, m.2 ≠ .code

def BeginsSolid (ms : List Mark) : Prop := ∀ m ∈ ms.head?, m.2.isSolid = true

def EndsSolid (ms : List Mark) : Prop := ∀ m ∈ ms.getLast?, m.2.isSolid = true

def filled (ms : List Mark) : List Mark := ms.filter fun m => !m.2.isBlank

@[simp] theorem isBlank_iff (r : Reading) : r.isBlank = true ↔ r = .blank := by
  simp [Reading.isBlank]

@[simp] theorem isComment_iff (r : Reading) : r.isComment = true ↔ r = .comment := by
  simp [Reading.isComment]

@[simp] theorem isBlank_eq_false (r : Reading) : r.isBlank = false ↔ r ≠ .blank := by
  simp [Reading.isBlank]

@[simp] theorem isComment_eq_false (r : Reading) : r.isComment = false ↔ r ≠ .comment := by
  simp [Reading.isComment]

theorem isSolid_iff (r : Reading) : r.isSolid = true ↔ r ≠ .comment ∧ r ≠ .blank := by
  simp [Reading.isSolid]

@[simp] theorem blanks_nil : Blanks [] := by simp [Blanks]

@[simp] theorem blanks_cons (m : Mark) (ms : List Mark) :
    Blanks (m :: ms) ↔ m.2 = .blank ∧ Blanks ms := by simp [Blanks]

@[simp] theorem blanks_append (ms ns : List Mark) :
    Blanks (ms ++ ns) ↔ Blanks ms ∧ Blanks ns := by simp [Blanks, or_imp, forall_and]

@[simp] theorem comments_nil : Comments [] := by simp [Comments]

@[simp] theorem comments_cons (m : Mark) (ms : List Mark) :
    Comments (m :: ms) ↔ m.2 = .comment ∧ Comments ms := by simp [Comments]

@[simp] theorem comments_append (ms ns : List Mark) :
    Comments (ms ++ ns) ↔ Comments ms ∧ Comments ns := by simp [Comments, or_imp, forall_and]

@[simp] theorem notes_nil : Notes [] := by simp [Notes]

@[simp] theorem notes_cons (m : Mark) (ms : List Mark) :
    Notes (m :: ms) ↔ (m.2 = .comment ∨ m.2 = .blank) ∧ Notes ms := by simp [Notes]

@[simp] theorem notes_append (ms ns : List Mark) :
    Notes (ms ++ ns) ↔ Notes ms ∧ Notes ns := by simp [Notes, or_imp, forall_and]

@[simp] theorem undeclared_nil : Undeclared [] := by simp [Undeclared]

@[simp] theorem undeclared_cons (m : Mark) (ms : List Mark) :
    Undeclared (m :: ms) ↔ (∀ k, m.2 ≠ .declaration k) ∧ Undeclared ms := by simp [Undeclared]

@[simp] theorem undeclared_append (ms ns : List Mark) :
    Undeclared (ms ++ ns) ↔ Undeclared ms ∧ Undeclared ns := by
  simp [Undeclared, or_imp, forall_and]

theorem Blanks.notes {ms : List Mark} (h : Blanks ms) : Notes ms := fun m hm => Or.inr (h m hm)

theorem Comments.notes {ms : List Mark} (h : Comments ms) : Notes ms := fun m hm => Or.inl (h m hm)

theorem Notes.undeclared {ms : List Mark} (h : Notes ms) : Undeclared ms := by
  intro m hm k hk
  rcases h m hm with hc | hb
  · simp [hk] at hc
  · simp [hk] at hb

@[simp] theorem beginsFilled_nil : BeginsFilled [] := by simp [BeginsFilled]

@[simp] theorem beginsFilled_cons (m : Mark) (ms : List Mark) :
    BeginsFilled (m :: ms) ↔ m.2 ≠ .blank := by simp [BeginsFilled]

@[simp] theorem endsSolid_nil : EndsSolid [] := by simp [EndsSolid]

@[simp] theorem endsSolid_singleton (m : Mark) : EndsSolid [m] ↔ m.2.isSolid = true := by
  simp [EndsSolid]

@[simp] theorem endsSolid_cons_cons (m n : Mark) (ms : List Mark) :
    EndsSolid (m :: n :: ms) ↔ EndsSolid (n :: ms) := by simp [EndsSolid]

@[simp] theorem endsFilled_nil : EndsFilled [] := by simp [EndsFilled]

theorem endsFilled_append {ms ns : List Mark} (hn : ns ≠ []) :
    EndsFilled (ms ++ ns) ↔ EndsFilled ns := by
  simp [EndsFilled, List.getLast?_append, hn]

theorem endsSolid_append {ms ns : List Mark} (hn : ns ≠ []) :
    EndsSolid (ms ++ ns) ↔ EndsSolid ns := by
  simp [EndsSolid, List.getLast?_append, hn]

theorem beginsFilled_append {ms ns : List Mark} (hm : ms ≠ []) :
    BeginsFilled (ms ++ ns) ↔ BeginsFilled ms := by
  obtain ⟨m, ms, rfl⟩ := List.exists_cons_of_ne_nil hm
  simp

theorem beginsUncommented_append {ms ns : List Mark} (hm : ms ≠ []) :
    BeginsUncommented (ms ++ ns) ↔ BeginsUncommented ms := by
  obtain ⟨m, ms, rfl⟩ := List.exists_cons_of_ne_nil hm
  rfl

theorem EndsSolid.endsFilled {ms : List Mark} (h : EndsSolid ms) : EndsFilled ms :=
  fun m hm => ((isSolid_iff m.2).mp (h m hm)).2

theorem BeginsSolid.filled {ms : List Mark} (h : BeginsSolid ms) : BeginsFilled ms :=
  fun m hm => ((isSolid_iff m.2).mp (h m hm)).2

theorem BeginsSolid.uncommented {ms : List Mark} (h : BeginsSolid ms) : BeginsUncommented ms :=
  fun m hm => ((isSolid_iff m.2).mp (h m hm)).1

theorem Blanks.uncommented {ms : List Mark} (h : Blanks ms) : BeginsUncommented ms := by
  intro m hm
  simp [h m (List.mem_of_mem_head? hm)]

theorem Comments.beginsFilled {ms : List Mark} (h : Comments ms) : BeginsFilled ms := by
  intro m hm
  simp [h m (List.mem_of_mem_head? hm)]

theorem Comments.endsFilled {ms : List Mark} (h : Comments ms) : EndsFilled ms := by
  intro m hm
  simp [h m (List.mem_of_mem_getLast? hm)]

theorem BeginsFilled.append {ms ns : List Mark} (hm : BeginsFilled ms) (hn : BeginsFilled ns) :
    BeginsFilled (ms ++ ns) := by
  cases ms with
  | nil => exact hn
  | cons m ms => exact hm

theorem BeginsUncommented.append {ms ns : List Mark} (hm : BeginsUncommented ms)
    (hn : BeginsUncommented ns) : BeginsUncommented (ms ++ ns) := by
  cases ms with
  | nil => exact hn
  | cons m ms => exact hm

theorem BeginsFilled.of_append {ms ns : List Mark} (h : BeginsFilled (ms ++ ns)) :
    BeginsFilled ms := by
  cases ms with
  | nil => exact beginsFilled_nil
  | cons m ms => exact h

theorem EndsFilled.of_append {ms ns : List Mark} (h : EndsFilled (ms ++ ns)) : EndsFilled ns := by
  by_cases hn : ns = []
  · simp [hn]
  · exact (endsFilled_append hn).mp h

theorem Notes.eq_nil {ms : List Mark} (h : Notes ms) (hs : EndsSolid ms) : ms = [] := by
  rcases List.eq_nil_or_concat ms with rfl | ⟨init, m, rfl⟩
  · rfl
  · have hm := (isSolid_iff m.2).mp (hs m (by simp))
    rcases h m (by simp) with hc | hb
    · exact absurd hc hm.1
    · exact absurd hb hm.2

theorem exists_blanks (ms : List Mark) :
    ∃ before rest, ms = before ++ rest ∧ Blanks before ∧ BeginsFilled rest := by
  induction ms with
  | nil => exact ⟨[], [], by simp⟩
  | cons m ms ih =>
    by_cases hm : m.2 = .blank
    · obtain ⟨before, rest, rfl, hb, hf⟩ := ih
      exact ⟨m :: before, rest, by simp, by simp [hm, hb], hf⟩
    · exact ⟨[], m :: ms, by simp, by simp, by simp [hm]⟩

theorem exists_comments (ms : List Mark) : ∃ run rest, ms = run ++ rest ∧ Comments run ∧
    BeginsUncommented rest := by
  induction ms with
  | nil => exact ⟨[], [], by simp [BeginsUncommented]⟩
  | cons m ms ih =>
    by_cases hm : m.2 = .comment
    · obtain ⟨run, rest, rfl, hc, hf⟩ := ih
      exact ⟨m :: run, rest, by simp, by simp [hm, hc], hf⟩
    · exact ⟨[], m :: ms, by simp, by simp, by simp [BeginsUncommented, hm]⟩

theorem exists_notes (ms : List Mark) : ∃ front back, ms = front ++ back ∧ Notes front ∧
    BeginsSolid back := by
  induction ms with
  | nil => exact ⟨[], [], by simp [BeginsSolid]⟩
  | cons m ms ih =>
    by_cases hm : m.2 = .comment ∨ m.2 = .blank
    · obtain ⟨front, back, rfl, hn, hs⟩ := ih
      exact ⟨m :: front, back, by simp, by simp [hm, hn], hs⟩
    · exact ⟨[], m :: ms, by simp, by simp, by simpa [BeginsSolid, isSolid_iff, not_or] using hm⟩

@[simp] theorem filled_append (ms ns : List Mark) :
    filled (ms ++ ns) = filled ms ++ filled ns := by simp [filled]

@[simp] theorem filled_blanks {ms : List Mark} (h : Blanks ms) : filled ms = [] := by
  simpa [filled, Blanks] using h

end Marks

end ScriptOrder
