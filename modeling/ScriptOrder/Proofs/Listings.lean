import Mathlib.Data.List.Basic
import ScriptOrder.Proofs.Openers
import ScriptOrder.Proofs.Ownership
import ScriptOrder.Session

/-!
# What a listing shows

A listing prints one line for each line of a script: its number, what it is, and the
line itself. The lines it prints for declarations show the kinds of the blocks that
hold them, in the order of the blocks.
-/

set_option autoImplicit false

namespace ScriptOrder

namespace Paint

theorem takeUp_unbroken {opening s : Text} (ho : '\n' ∉ opening) (hs : '\n' ∉ s) :
    '\n' ∉ takeUp opening s := by
  induction s using takeUp.induct with
  | case1 => exact hs
  | case2 rest ih =>
    have hrest : '\n' ∉ rest := by simpa using hs
    simp [takeUp, reset, ho, ih hrest]
  | case3 c rest hreset ih =>
    obtain ⟨hc, hrest⟩ := not_or.mp (mt List.mem_cons.mpr hs)
    rw [takeUp]
    · simp [hc, ih hrest]
    · exact hreset

theorem paint_unbroken (colored : Bool) {style : Option Style} {s : Text}
    (hstyle : ∀ st ∈ style, '\n' ∉ st.codes) (hs : '\n' ∉ s) : '\n' ∉ paint colored style s := by
  cases style with
  | none => exact hs
  | some st =>
    have hopening : '\n' ∉ st.opening := by simp [Style.opening, hstyle st rfl]
    rw [paint]
    split
    · simp [hopening, takeUp_unbroken hopening hs, reset]
    · exact hs

theorem number_unbroken (n : Nat) : '\n' ∉ number n := by
  intro hmem
  rcases List.mem_append.mp hmem with hspace | hdigit
  · exact absurd (List.eq_of_mem_replicate hspace) (by decide)
  · exact absurd (Nat.isDigit_of_mem_toDigits (by decide) (by decide) hdigit) (by decide)

theorem padded_unbroken (width : Nat) {s : Text} (hs : '\n' ∉ s) : '\n' ∉ padded width s := by
  intro hmem
  rcases List.mem_append.mp hmem with hmem | hspace
  · exact hs hmem
  · exact absurd (List.eq_of_mem_replicate hspace) (by decide)

end Paint

namespace Listing
open Paint

variable {rules : Rulebook} {colored : Bool}

def shown (rules : Rulebook) (colored : Bool) (n : Nat) (l : Line) (r : Reading) : Line :=
  number (n + 1) ++ ' ' :: paint colored (style r) (padded labelWidth (label rules l r)) ++
    ' ' :: paint colored (some faint) l

theorem rows_unlines (n : Nat) (ms : List (Line × Reading)) : rows rules colored n ms =
    Lines.unlines (ms.mapIdx fun i m => shown rules colored (n + i) m.1 m.2) := by
  induction ms generalizing n with
  | nil => rfl
  | cons m ms ih =>
    have hplaces : (fun i (m : Line × Reading) => shown rules colored (n + (i + 1)) m.1 m.2) =
        fun i m => shown rules colored (n + 1 + i) m.1 m.2 := by
      funext i m
      rw [Nat.add_assoc, Nat.add_comm i 1]
    rw [rows, ih, List.mapIdx_cons, hplaces]
    rfl

theorem label_unbroken (rules : Rulebook) (l : Line) (r : Reading) : '\n' ∉ label rules l r := by
  have hname (kind : Kind) : '\n' ∉ kind.name.toList := by cases kind <;> decide
  cases r with
  | declaration kind => exact hname (rules.settle kind l)
  | blank => exact List.not_mem_nil
  | comment =>
    show '\n' ∉ "comment".toList
    decide
  | body =>
    show '\n' ∉ "body".toList
    decide
  | code =>
    show '\n' ∉ "code".toList
    decide

theorem style_unbroken (r : Reading) : ∀ st ∈ style r, '\n' ∉ st.codes := by
  intro st hst
  cases r with
  | blank => exact absurd hst (by simp [style])
  | body => exact absurd hst (by simp [style])
  | comment =>
    obtain rfl : success = st := Option.some.inj hst
    decide
  | declaration kind =>
    obtain rfl : named = st := Option.some.inj hst
    decide
  | code =>
    obtain rfl : caution = st := Option.some.inj hst
    decide

theorem shown_unbroken (n : Nat) {l : Line} (hl : '\n' ∉ l) (r : Reading) :
    '\n' ∉ shown rules colored n l r := by
  have hlabel := paint_unbroken colored (style_unbroken r)
    (padded_unbroken labelWidth (label_unbroken rules l r))
  have hfaint : ∀ st ∈ some faint, '\n' ∉ st.codes := by
    rintro st ⟨⟩
    decide
  have hline := paint_unbroken colored hfaint hl
  simp [shown, number_unbroken, hlabel, hline]

/-- The printed lines of a listing, one for each line of the script. -/
theorem lines_listing (rules : Rulebook) (colored : Bool) (x : Text) :
    Lines.lines (listing rules colored x) =
      (Script.ofText rules x).marks.mapIdx fun i m => shown rules colored i m.1 m.2 := by
  let s := Script.ofText rules x
  have hs : s.Even := Script.ofLines_even rules _
  have hrows : listing rules colored x = Lines.unlines
      (s.marks.mapIdx fun i m => shown rules colored (0 + i) m.1 m.2) := rows_unlines 0 _
  simp only [Nat.zero_add] at hrows
  rw [hrows, Lines.lines_unlines]
  intro l hl
  obtain ⟨i, hi, rfl⟩ := List.mem_mapIdx.mp hl
  have hmem : s.marks[i].1 ∈ s.lines := by
    rw [← Script.marks_lines hs]
    exact List.mem_map_of_mem (List.getElem_mem hi)
  exact shown_unbroken i (Lines.lines_no_newline _ _ hmem) _

end Listing

namespace Session
open Batch Listing Paint Script Scan

variable {m : Machine} {r : Request} {s : Settings}

/-- The printed line that shows line `n` of a script as a declaration of a kind. -/
def kindLine (colored : Bool) (n : Nat) (k : Kind) (l : Line) : Line :=
  number (n + 1) ++ ' ' :: paint colored (some named) (padded labelWidth k.name.toList) ++
    ' ' :: paint colored (some faint) l

/-- What a listing of a script comes to, told by its blocks from line `start` on. -/
structure Listed (m : Machine) (s : Script) (start : Nat) (q : Outcome) : Prop where
  code : q.code = 0
  files : q.files = m.files
  length : (Lines.lines q.stdout).length = s.lines.length
  shown : ∀ i, i < s.lines.length → ∃ what, (Lines.lines q.stdout)[i]? =
    some (number (i + 1) ++ ' ' :: what ++ ' ' :: paint m.colored (some faint) (s.line i))
  /-- The declarations are shown under the kinds of the blocks that they head. -/
  declarations : (s.declared start (s.length - start)).map (fun d => (Lines.lines q.stdout)[d]?) =
    (blocks s start).flatMap fun b => (s.heads b).map fun d =>
      some (kindLine m.colored d b.kind (s.line d))
  warned : q.stderr = [] ∧ ¬ s.EndsOpen ∨ ∃ n, s.OpenSince n ∧
    q.stderr = warnLine m.colored (Remark.mk n .unterminated).display.toList

theorem answer_classify (hr : r.subcommand = .classify) (hs : settings m r.config = .ok s)
    {x : Text} (hx : m.files.text? (r.inputs.headD []) = some x) : answer m (.run r) =
      ⟨0, listing s.rulebook m.colored x, warnings m.colored x, m.files⟩ := by
  simp only [answer, hs]
  rw [perform, hr]
  simp only [classify, hx]

theorem getElem?_listing {rules : Rulebook} {colored : Bool} {x : Text} {i : Nat}
    (hi : i < (Script.ofText rules x).lines.length) :
    (Lines.lines (listing rules colored x))[i]? = some (Listing.shown rules colored i
      ((Script.ofText rules x).line i) ((Script.ofText rules x).reading i)) := by
  let s := Script.ofText rules x
  have hs : s.Even := Script.ofLines_even rules _
  have hlt : i < s.marks.length := by
    rw [marks_length hs, Script.length, ← hs]
    exact hi
  obtain ⟨hline, hreading⟩ := mark_of_drop hs (List.drop_eq_getElem_cons hlt)
  rw [lines_listing, List.getElem?_mapIdx, List.getElem?_eq_getElem hlt, hline, hreading]
  rfl

/-- The line printed for a declaration shows the kind of the block that it heads. -/
theorem head_shown {rules : Rulebook} {colored : Bool} {x : Text} {start : Nat} {b : Block}
    (hb : b ∈ blocks (Script.ofText rules x) start) {d : Nat}
    (hd : d ∈ (Script.ofText rules x).heads b) : (Lines.lines (listing rules colored x))[d]? =
      some (kindLine colored d b.kind ((Script.ofText rules x).line d)) := by
  let s := Script.ofText rules x
  have hs : s.Even := Script.ofLines_even rules _
  have hspread := spread_blocks hs start
  obtain ⟨hholds, kind, hkind⟩ := mem_heads.mp hd
  obtain ⟨hle, hfilled⟩ := hspread.filled b hb
  have hlt : d < s.lines.length := by
    rw [show s.lines.length = s.length from hs]
    exact Nat.lt_of_lt_of_le hholds.2 hfilled.within
  obtain ⟨c, hc, -, hsettled⟩ :=
    (blocks_own_lines hs start).head d kind (Nat.le_trans hle hholds.1) hkind
  -- The rule gives the line a block; it is the one that holds the line.
  obtain rfl : b = c := Option.some.inj ((holder_of_holds hspread.ordered hb hholds).symm.trans hc)
  rw [getElem?_listing hlt, hkind, hsettled]
  rfl

theorem listed (rules : Rulebook) (x : Text) (start : Nat) :
    Listed m (Script.ofText rules x) start
      ⟨0, listing rules m.colored x, warnings m.colored x, m.files⟩ := by
  let s := Script.ofText rules x
  have hs : s.Even := Script.ofLines_even rules _
  constructor
  · rfl
  · rfl
  · rw [lines_listing, List.length_mapIdx, marks_length hs]
    exact hs.symm
  · intro i hi
    exact ⟨_, getElem?_listing hi⟩
  · rw [(spread_blocks hs start).declared, List.map_flatMap]
    exact List.flatMap_congr fun b hb => List.map_congr_left fun d hd => head_shown hb hd
  · have hwarnings : warnings m.colored x =
        (Reading.remarks s.lines).flatMap fun r => warnLine m.colored r.display.toList := rfl
    rcases Script.remarks_lines s with ⟨hnone, hclosed⟩ | ⟨n, hone, hn⟩
    · exact .inl ⟨by rw [hwarnings, hnone]; rfl, hclosed⟩
    · exact .inr ⟨n, hn, by rw [hwarnings, hone, List.flatMap_singleton]⟩

/-- Each line has its block by one rule, and a listing shows the declarations under
the kinds of their blocks. -/
theorem blocks_own_listed_lines (start : Nat) :
    (∀ s : Script, s.Even → Ownership s start (blocks s start)) ∧
    ∀ (m : Machine) (r : Request) (s : Settings) (x : Text), r.subcommand = .classify →
      settings m r.config = .ok s → m.files.text? (r.inputs.headD []) = some x →
      Listed m (Script.ofText s.rulebook x) start (answer m (.run r)) := by
  refine ⟨fun s hs => blocks_own_lines hs start, fun m r s x hr hs hx => ?_⟩
  rw [answer_classify hr hs hx]
  exact listed s.rulebook x start

def annotatedMachine : Machine :=
  ⟨⟨[(["a.gd".toList], .text annotatedText)], [], []⟩, .text [], none, false⟩

theorem annotated_listed :
    Ownership annotated 0 [⟨0, 2, .publicVar⟩, ⟨3, 9, .publicFunc⟩, ⟨10, 11, .loose⟩] ∧
    [1, 5].map (fun d => (Lines.lines
        (Session.run annotatedMachine ["classify".toList, "a.gd".toList]).stdout)[d]?) =
      [some "   2 public_var         var x".toList,
        some "   6 public_func        func f():".toList] := by
  have heven : annotated.Even := ofLines_even .default _
  have hblocks : blocks annotated 0 =
      [⟨0, 2, .publicVar⟩, ⟨3, 9, .publicFunc⟩, ⟨10, 11, .loose⟩] := by decide
  have hdeclared : annotated.declared 0 (annotated.length - 0) = [1, 5] := by decide
  have hasked : Request.ofArguments ["classify".toList, "a.gd".toList] =
      .run ⟨.classify, ["a.gd".toList], none, []⟩ := by decide
  have htext : annotatedMachine.files.text? "a.gd".toList = some annotatedText := by decide
  obtain ⟨hown, hlisted⟩ := blocks_own_listed_lines 0
  have hall : Listed annotatedMachine annotated 0
      (answer annotatedMachine (.run ⟨.classify, ["a.gd".toList], none, []⟩)) :=
    hlisted annotatedMachine _ .default annotatedText rfl rfl htext
  have hshown := hall.declarations
  rw [hdeclared, hblocks] at hshown
  refine ⟨hblocks ▸ hown annotated heven, ?_⟩
  rw [Session.run, hasked]
  exact hshown.trans (by decide)

end Session

end ScriptOrder
