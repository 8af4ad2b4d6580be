import Mathlib.Data.List.Basic
import ScriptOrder.Proofs.CommentLines

/-!
# Conversion line by line

The conversion is a machine that reads a line at a time: `emit` is what it
writes and `held` the lines of a docstring it has read but not yet written. It
is in a string exactly when a reader of the lines is. `Converts` says what comes
of a whole run: docstrings that end are replaced, and every other line is kept.
-/

set_option autoImplicit false

namespace ScriptOrder.Docstring
open Reading

namespace State

def enclosure : State → Enclosure
  | outside => .outside
  | inLiteral => .inLiteral
  | inUnit _ => .inComment

def held : State → List Line
  | outside => []
  | inLiteral => []
  | inUnit unit => unit.reverse

def base : State → Enclosure
  | outside => .outside
  | inLiteral => .inLiteral
  | inUnit _ => .outside

/-- The held lines are a docstring that has not ended. -/
def Sound : State → Prop
  | outside => True
  | inLiteral => True
  | inUnit unit => Spans unit.reverse .inComment

def next : State → Line → State
  | outside, l =>
    if Quotes.leavesOpen false l then if startsString l then inUnit [l] else inLiteral else outside
  | inLiteral, l => if Quotes.leavesOpen true l then inLiteral else outside
  | inUnit unit, l => if Quotes.leavesOpen true l then inUnit (l :: unit) else outside

def emit : State → Line → List Line
  | outside, l =>
    if startsString l then if Quotes.leavesOpen false l then [] else comments [l] else [l]
  | inLiteral, l => [l]
  | inUnit unit, l => if Quotes.leavesOpen true l then [] else comments (l :: unit).reverse

theorem enclosure_next (st : State) (l : Line) : (st.next l).enclosure = st.enclosure.after l := by
  cases st with
  | outside =>
    rw [next, enclosure, after_outside]
    split
    · split <;> rfl
    · rfl
  | inLiteral =>
    rw [next, enclosure, after_inLiteral]
    split <;> rfl
  | inUnit unit =>
    rw [next, enclosure, after_inComment]
    split <;> rfl

theorem Sound.next {st : State} (h : st.Sound) (l : Line) : (st.next l).Sound := by
  cases st with
  | outside =>
    rw [State.next]
    split
    · rename_i hopen
      split
      · rename_i hstart
        have hspans := spans_single hstart
        rwa [after_outside, if_pos hopen, if_pos hstart] at hspans
      · trivial
    · trivial
  | inLiteral =>
    rw [State.next]
    split <;> trivial
  | inUnit unit =>
    rw [State.next]
    split
    · rename_i hopen
      have hspans : Spans (unit.reverse ++ [l]) (Enclosure.inComment.after l) := Spans.concat h l
      rw [after_inComment, if_pos hopen] at hspans
      simpa [Sound] using hspans
    · trivial

def ofEnclosure : Enclosure → State
  | .outside => outside
  | .inComment => outside
  | .inLiteral => inLiteral

theorem sound_ofEnclosure (e : Enclosure) : (ofEnclosure e).Sound := by cases e <;> trivial

theorem held_ofEnclosure (e : Enclosure) : (ofEnclosure e).held = [] := by cases e <;> rfl

theorem enclosure_ofEnclosure {e : Enclosure} (h : e ≠ .inComment) :
    (ofEnclosure e).enclosure = e := by cases e <;> simp_all [ofEnclosure, enclosure]

theorem base_ofEnclosure {e : Enclosure} (h : e ≠ .inComment) : (ofEnclosure e).base = e := by
  cases e <;> simp_all [ofEnclosure, base]

end State

theorem convertIn_cons (st : State) (l : Line) (ls : List Line) :
    convertIn st (l :: ls) = st.emit l ++ convertIn (st.next l) ls := by
  cases st with
  | outside =>
    rw [convertIn, State.emit, State.next]
    split
    · split <;> rfl
    · rfl
  | inLiteral => rfl
  | inUnit unit =>
    rw [convertIn, State.emit, State.next]
    split <;> rfl

theorem convertIn_append {st : State} {ls : List Line} (ms : List Line)
    (h : st.enclosure.afterAll ls ≠ .inComment) : convertIn st (ls ++ ms) =
      convertIn st ls ++ convertIn (.ofEnclosure (st.enclosure.afterAll ls)) ms := by
  induction ls generalizing st with
  | nil =>
    cases st with
    | outside => rfl
    | inLiteral => rfl
    | inUnit unit => exact absurd rfl h
  | cons l ls ih =>
    rw [Enclosure.afterAll, ← State.enclosure_next] at h
    rw [List.cons_append, convertIn_cons, convertIn_cons, ih h, List.append_assoc,
      State.enclosure_next]
    rfl

/-- What the lines become if they are read from the string state `e`, which they
leave as `f`. -/
inductive Converts : Enclosure → List Line → List Line → Enclosure → Prop
  | done (e : Enclosure) : Converts e [] [] e
  | kept {e f : Enclosure} {l : Line} {ls ns : List Line} : e ≠ .inComment →
      (e = .outside → startsString l = false) → Converts (e.after l) ls ns f →
      Converts e (l :: ls) (l :: ns) f
  | replaced {f : Enclosure} {unit ls ns : List Line} : Spans unit .outside →
      Converts .outside ls ns f → Converts .outside (unit ++ ls) (comments unit ++ ns) f
  | unended {unit : List Line} : Spans unit .inComment → Converts .outside unit unit .inComment

theorem converts_step {st : State} (hs : st.Sound) (l : Line) {ls ns : List Line} {f : Enclosure}
    (h : Converts (st.next l).base ((st.next l).held ++ ls) ns f) :
    Converts st.base (st.held ++ l :: ls) (st.emit l ++ ns) f := by
  -- A line is kept, or it ends a docstring, or it is held and nothing is said of it yet.
  cases st with
  | outside =>
    by_cases hstart : startsString l = true
    · by_cases hopen : Quotes.leavesOpen false l = true
      · simp only [State.next, State.emit, if_pos hstart, if_pos hopen] at h ⊢
        exact h
      · simp only [State.next, State.emit, if_pos hstart, if_neg hopen] at h ⊢
        have hspans := spans_single hstart
        rw [after_outside, if_neg hopen] at hspans
        exact .replaced hspans h
    · have hafter : (State.outside.next l).base = Enclosure.outside.after l ∧
          (State.outside.next l).held = [] := by
        rw [State.next, after_outside, if_neg hstart, if_neg hstart]
        split <;> exact ⟨rfl, rfl⟩
      rw [hafter.1, hafter.2] at h
      rw [State.emit, if_neg hstart]
      exact .kept (by simp [State.base]) (fun _ => by simpa using hstart) h
  | inLiteral =>
    have hafter : (State.inLiteral.next l).base = Enclosure.inLiteral.after l ∧
        (State.inLiteral.next l).held = [] := by
      rw [State.next, after_inLiteral]
      split <;> exact ⟨rfl, rfl⟩
    rw [hafter.1, hafter.2] at h
    exact .kept (by simp [State.base]) (by simp [State.base]) h
  | inUnit unit =>
    by_cases hopen : Quotes.leavesOpen true l = true
    · simp only [State.next, State.emit, if_pos hopen] at h ⊢
      simpa [State.base, State.held] using h
    · simp only [State.next, State.emit, if_neg hopen] at h ⊢
      have hspans : Spans (unit.reverse ++ [l]) (Enclosure.inComment.after l) := Spans.concat hs l
      rw [after_inComment, if_neg hopen] at hspans
      have hreplaced := Converts.replaced hspans h
      simpa [State.base, State.held] using hreplaced

theorem converts_convertIn {st : State} (hs : st.Sound) (ls : List Line) :
    Converts st.base (st.held ++ ls) (convertIn st ls) (st.enclosure.afterAll ls) := by
  induction ls generalizing st with
  | nil =>
    cases st with
    | outside => exact .done _
    | inLiteral => exact .done _
    | inUnit unit =>
      rw [State.held, List.append_nil]
      exact .unended hs
  | cons l ls ih =>
    rw [convertIn_cons, Enclosure.afterAll, ← State.enclosure_next]
    exact converts_step hs l (ih (hs.next l))

def convertFrom (e : Enclosure) (ls : List Line) : List Line := convertIn (.ofEnclosure e) ls

theorem converts_from {e : Enclosure} (he : e ≠ .inComment) (ls : List Line) :
    Converts e ls (convertFrom e ls) (e.afterAll ls) := by
  have h := converts_convertIn (State.sound_ofEnclosure e) ls
  rwa [State.held_ofEnclosure, State.base_ofEnclosure he, State.enclosure_ofEnclosure he] at h

theorem convertFrom_append {e f : Enclosure} {ls : List Line} (he : e ≠ .inComment)
    (hls : e.afterAll ls = f) (hf : f ≠ .inComment) (ms : List Line) :
    convertFrom e (ls ++ ms) = convertFrom e ls ++ convertFrom f ms := by
  have hst := State.enclosure_ofEnclosure he
  rw [convertFrom, convertIn_append ms (by rwa [hst, hls]), hst, hls]
  rfl

namespace Converts

variable {e f : Enclosure} {ls ns : List Line}

theorem afterAll (h : Converts e ls ns f) : e.afterAll ls = f ∧ e.afterAll ns = f := by
  induction h with
  | done e => exact ⟨rfl, rfl⟩
  | kept _ _ _ ih => exact ih
  | @replaced f unit ls ns hspans _ ih =>
    rw [Enclosure.afterAll_append, Enclosure.afterAll_append, hspans.afterAll,
      afterAll_hash (comments_hash unit)]
    exact ih
  | unended hspans => exact ⟨hspans.afterAll, hspans.afterAll⟩

theorem plain (h : Converts e ls ns f) (hplain : ∀ l ∈ ls, Lines.Plain l) :
    ∀ l ∈ ns, Lines.Plain l := by
  induction h with
  | done e => simp
  | kept _ _ _ ih =>
    rw [List.forall_mem_cons] at hplain ⊢
    exact ⟨hplain.1, ih hplain.2⟩
  | replaced hspans _ ih =>
    rw [List.forall_mem_append] at hplain ⊢
    exact ⟨comments_plain hspans hplain.1, ih hplain.2⟩
  | unended _ => exact hplain

theorem eq_nil_iff (h : Converts e ls ns f) : ns = [] ↔ ls = [] := by
  cases h with
  | done e => rfl
  | kept _ _ _ => simp
  | @replaced f unit ls ns hspans _ =>
    obtain ⟨l, rest, rfl, -⟩ := hspans
    simp [comments_ne_nil]
  | unended _ => rfl

theorem eq_empty (h : Converts e ls ns f) (hns : ns = [[]]) : ls = [[]] := by
  cases h with
  | done e => simp at hns
  | kept _ _ hrest =>
    obtain ⟨rfl, rfl⟩ := List.cons.inj hns
    rw [hrest.eq_nil_iff.mp rfl]
  | @replaced f unit ls ns _ _ =>
    obtain ⟨l, rest, hcomments⟩ := List.exists_cons_of_ne_nil (comments_ne_nil unit)
    rw [hcomments, List.cons_append] at hns
    have hhash := comments_hash unit l (by simp [hcomments])
    simp [(List.cons.inj hns).1] at hhash
  | unended _ => exact hns

theorem last_filled (h : Converts e ls ns f) (hlast : ∀ l ∈ ls.getLast?, l ≠ []) :
    ∀ l ∈ ns.getLast?, l ≠ [] := by
  induction h with
  | done e => exact hlast
  | @kept e f l ls ns _ _ hrest ih =>
    by_cases hnil : ls = []
    · rwa [hrest.eq_nil_iff.mpr hnil, ← hnil]
    · have hnil' : ns ≠ [] := mt hrest.eq_nil_iff.mp hnil
      rw [List.getLast?_cons_of_ne_nil hnil] at hlast
      rw [List.getLast?_cons_of_ne_nil hnil']
      exact ih hlast
  | @replaced f unit ls ns _ hrest ih =>
    by_cases hnil : ls = []
    · rw [hrest.eq_nil_iff.mpr hnil, List.append_nil]
      rintro l hl rfl
      have hhash := comments_hash unit [] (List.mem_of_mem_getLast? hl)
      simp at hhash
    · have hnil' : ns ≠ [] := mt hrest.eq_nil_iff.mp hnil
      rw [List.getLast?_append_of_ne_nil _ hnil] at hlast
      rw [List.getLast?_append_of_ne_nil _ hnil']
      exact ih hlast
  | unended _ => exact hlast

end Converts

end ScriptOrder.Docstring
