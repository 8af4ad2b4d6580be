import Mathlib.Data.List.Basic
import ScriptOrder.FileStore

/-!
# Laws of stores

Replacing what a file holds moves no file and no folder: every name leads where
it led, and only the one location holds something else. A name that gives a text
leads to a file, so a write under it makes nothing: it is refused or replaces.
-/

set_option autoImplicit false

namespace ScriptOrder.FileStore

variable {st : FileStore} {l : Location} {name t : Text}

def replaced (l : Location) (t : Text) (f : Location × Content) : Location × Content :=
  if f.1 = l then (l, .text t) else f

theorem replaced_location (l : Location) (t : Text) (f : Location × Content) :
    (replaced l t f).1 = f.1 := by
  rw [replaced]
  split
  · exact Eq.symm ‹_›
  · rfl

theorem replace_files (st : FileStore) (l : Location) (t : Text) :
    (st.replace l t).files = st.files.map (replaced l t) := rfl

theorem isFolder_replace (k : Location) : (st.replace l t).isFolder k = st.isFolder k := by
  rw [isFolder, isFolder, replace_files, List.any_map]
  simp only [Function.comp_def, replaced_location]
  rfl

theorem walk_replace (names : List Text) (k : Location) :
    (st.replace l t).walk k names = st.walk k names := by
  induction names generalizing k with
  | nil => rfl
  | cons name names ih => rw [walk, walk, isFolder_replace, ih]

theorem locate?_replace (name : Text) : (st.replace l t).locate? name = st.locate? name := by
  rw [locate?, locate?, walk_replace]
  rfl

theorem at?_replace (k : Location) : (st.replace l t).at? k =
    (st.at? k).map fun c => if k = l then .text t else c := by
  have hsame : (fun f : Location × Content => decide (f.1 = k)) ∘ replaced l t =
      fun f => decide (f.1 = k) := by
    funext f
    simp [replaced_location]
  rw [at?, at?, replace_files, List.find?_map, hsame, Option.map_map, Option.map_map]
  apply Option.map_congr
  intro f hf
  have hk : f.1 = k := by simpa using List.find?_some hf
  rw [Function.comp_apply, Function.comp_apply, replaced, hk]
  split <;> rfl

theorem content?_of_text? {x : Text} (h : st.text? name = some x) :
    st.content? name = some (.text x) := by
  obtain ⟨c, hc, hx⟩ := Option.bind_eq_some_iff.mp h
  cases c with
  | text y => rw [hc, show y = x from Option.some_inj.mp hx]
  | bytes bs => simp [Content.text?] at hx

theorem locate?_of_text? {x : Text} (h : st.text? name = some x) :
    ∃ l, st.locate? name = some l ∧ st.at? l = some (.text x) :=
  Option.bind_eq_some_iff.mp (content?_of_text? h)

theorem refuses_replace (name : Text) : (st.replace l t).refuses name = st.refuses name := by
  rw [refuses, refuses, locate?_replace]
  rfl

theorem folders_of_walk {names : List Text} {k : Location} (h : st.walk l names = some k) :
    ∀ d ∈ passed l names, st.isFolder d = true := by
  induction names generalizing l with
  | nil => simp [passed]
  | cons name names ih =>
    rw [walk] at h
    split at h
    · rename_i hfolder
      exact List.forall_mem_cons.mpr ⟨hfolder, ih h⟩
    · simp at h

theorem makeFolders?_of_folders {ls : List Location} (h : ∀ d ∈ ls, st.isFolder d = true) :
    st.makeFolders? ls = some st := by
  induction ls with
  | nil => rfl
  | cons d ls ih =>
    obtain ⟨hd, hls⟩ := List.forall_mem_cons.mp h
    rw [makeFolders?, makeFolder?, if_pos hd, Option.bind_some, ih hls]

/-- A write under a name that gives a text makes no file and no folder. -/
theorem write?_of_text? {x : Text} (h : st.text? name = some x) :
    ∃ l, st.locate? name = some l ∧ st.at? l = some (.text x) ∧
      ∀ t, st.write? name t = if st.refuses name then none else some (st.replace l t) := by
  obtain ⟨l, hl, hat⟩ := locate?_of_text? h
  have hwalk : st.walk (st.top name) (name.splitOn '/') = some l := by
    rw [locate?] at hl
    split at hl
    · simp at hl
    · exact hl
  refine ⟨l, hl, hat, fun t => ?_⟩
  rw [write?, makeFolders?_of_folders (folders_of_walk hwalk), Option.bind_some, refuses, hl,
    Option.bind_some, Option.any_some, put?, hat]
  rfl

def added (st : FileStore) (l : Location) (t : Text) : FileStore :=
  { st with files := st.files ++ [(l, .text t)] }

theorem isFolder_added {k : Location} (h : st.isFolder k = true) :
    (st.added l t).isFolder k = true := by
  simp only [isFolder, added, List.any_append, Bool.or_eq_true] at h ⊢
  rcases h with h | h
  · exact Or.inl h
  · exact Or.inr (Or.inl h)

theorem walk_added {names : List Text} {k d : Location} (h : st.walk k names = some d) :
    (st.added l t).walk k names = some d := by
  induction names generalizing k with
  | nil => exact h
  | cons name names ih =>
    rw [walk] at h ⊢
    split at h
    · rename_i hfolder
      rw [if_pos (isFolder_added hfolder)]
      exact ih h
    · simp at h

theorem locate?_added {k : Location} (h : st.locate? name = some k) :
    (st.added l t).locate? name = some k := by
  rw [locate?] at h ⊢
  split at h
  · simp at h
  · rename_i hname
    rw [if_neg hname]
    exact walk_added h

theorem at?_added (h : st.at? l = none) : (st.added l t).at? l = some (.text t) := by
  have hnone : st.files.find? (fun f => f.1 = l) = none := Option.map_eq_none_iff.mp h
  rw [at?, added, List.find?_append, hnone]
  simp

theorem put?_found {st' : FileStore} (h : st.put? l t = some st') (hl : st.locate? name = some l) :
    st'.content? name = some (.text t) := by
  rw [put?] at h
  split at h
  · simp at h
  · cases hat : st.at? l with
    | some c =>
      rw [hat, Option.isSome_some, if_pos rfl] at h
      obtain rfl := Option.some.inj h
      simp [content?, locate?_replace, hl, at?_replace, hat]
    | none =>
      rw [hat, Option.isSome_none, if_neg Bool.false_ne_true] at h
      split at h
      · simp at h
      · obtain rfl := Option.some.inj h
        have hfound : (st.added l t).content? name = (st.added l t).at? l := by
          rw [content?, locate?_added hl, Option.bind_some]
        exact hfound.trans (at?_added hat)

/-- A file that is written holds what was written, also if it is new. -/
theorem content?_write? {st' : FileStore} (h : st.write? name t = some st') :
    st'.content? name = some (.text t) := by
  obtain ⟨made, -, hmade⟩ := Option.bind_eq_some_iff.mp h
  obtain ⟨l, hl, hput⟩ := Option.bind_eq_some_iff.mp hmade
  exact put?_found hput hl

/-- In a new folder. -/
example : ((⟨[], [], []⟩ : FileStore).write? "a/b.gd".toList []).map FileStore.files =
    some [(["a".toList, "b.gd".toList], .text [])] := by decide

end ScriptOrder.FileStore
