import Mathlib.Data.List.Nodup
import ScriptOrder.Proofs.Stores

/-!
# Writes to several files

Writes to different files can be made in any order, and each is seen at its own
file and nowhere else.
-/

set_option autoImplicit false

namespace ScriptOrder.FileStore

variable {st : FileStore} {k l : Location} {t u : Text} {name : Text}

abbrev Write := Location × Text

def replaceAll (st : FileStore) (ws : List Write) : FileStore :=
  ws.foldl (fun st w => st.replace w.1 w.2) st

theorem replaceAll_cons (w : Write) (ws : List Write) :
    st.replaceAll (w :: ws) = (st.replace w.1 w.2).replaceAll ws := rfl

theorem replaceAll_append (ws vs : List Write) :
    st.replaceAll (ws ++ vs) = (st.replaceAll ws).replaceAll vs := List.foldl_append

theorem replaceAll_places (ws : List Write) :
    (st.replaceAll ws).files.map Prod.fst = st.files.map Prod.fst := by
  induction ws generalizing st with
  | nil => rfl
  | cons w ws ih =>
    rw [replaceAll_cons, ih, replace_files, List.map_map]
    exact List.map_congr_left fun f _ => replaced_location w.1 w.2 f

theorem at?_replaceAll_other (ws : List Write) (h : ∀ w ∈ ws, w.1 ≠ l) :
    (st.replaceAll ws).at? l = st.at? l := by
  induction ws generalizing st with
  | nil => rfl
  | cons w ws ih =>
    obtain ⟨hw, hws⟩ := List.forall_mem_cons.mp h
    rw [replaceAll_cons, ih hws, at?_replace]
    simp [Ne.symm hw]

theorem at?_replaceAll {ws : List Write} (hnodup : (ws.map Prod.fst).Nodup) {w : Write}
    (hw : w ∈ ws) : (st.replaceAll ws).at? w.1 = (st.replace w.1 w.2).at? w.1 := by
  induction ws generalizing st with
  | nil => simp at hw
  | cons v ws ih =>
    rw [List.map_cons, List.nodup_cons] at hnodup
    rw [replaceAll_cons]
    rcases List.mem_cons.mp hw with rfl | hmem
    · exact at?_replaceAll_other ws fun v hv heq => hnodup.1 (List.mem_map.mpr ⟨v, hv, heq⟩)
    · have hne : w.1 ≠ v.1 := fun heq => hnodup.1 (List.mem_map.mpr ⟨w, hmem, heq⟩)
      rw [ih hnodup.2 hmem, at?_replace, at?_replace, at?_replace]
      simp [hne]

theorem replaced_comm (h : k ≠ l) (f : Location × Content) :
    replaced k t (replaced l u f) = replaced l u (replaced k t f) := by
  simp only [replaced]
  by_cases hk : f.1 = k
  · simp [hk, h]
  · by_cases hl : f.1 = l <;> simp [hk, hl, h.symm]

theorem replace_comm (h : k ≠ l) : (st.replace l u).replace k t = (st.replace k t).replace l u := by
  have hfiles : ((st.files.map (replaced l u)).map (replaced k t)) =
      (st.files.map (replaced k t)).map (replaced l u) := by
    rw [List.map_map, List.map_map]
    exact List.map_congr_left fun f _ => replaced_comm h f
  exact congrArg (fun files => { st with files }) hfiles

theorem replaceAll_perm {ws ws' : List Write} (hperm : ws.Perm ws')
    (hnodup : (ws.map Prod.fst).Nodup) : st.replaceAll ws = st.replaceAll ws' := by
  apply hperm.foldl_eq'
  intro v hv w hw st
  by_cases heq : v = w
  · rw [heq]
  · have hne : w.1 ≠ v.1 := fun hfst => heq (List.inj_on_of_nodup_map hnodup hw hv hfst).symm
    exact replace_comm hne

theorem replaceAll_folders (ws : List Write) : (st.replaceAll ws).folders = st.folders := by
  induction ws generalizing st with
  | nil => rfl
  | cons w ws ih => exact ih

/-- The file that an input of a batch names, if it names one. -/
def named? (st : FileStore) (name : Text) : Option Location :=
  if name = ['-'] then none else (st.locate? name).filter fun l => (st.at? l).isSome

theorem named?_replace (name : Text) : (st.replace l t).named? name = st.named? name := by
  rw [named?, named?, locate?_replace]
  simp only [at?_replace, Option.isSome_map]

theorem exists_named (hne : name ≠ ['-']) (h : st.text? name = some t) :
    ∃ l, st.named? name = some l ∧
      ∀ u, st.write? name u = if st.refuses name then none else some (st.replace l u) := by
  obtain ⟨l, hl, hat, hwrite⟩ := write?_of_text? h
  refine ⟨l, ?_, hwrite⟩
  rw [named?, if_neg hne, hl]
  simp [Option.filter, hat]

theorem text?_replace (hne : name ≠ ['-']) (h : st.named? name ≠ some l) :
    (st.replace l t).text? name = st.text? name := by
  have hcontent : (st.replace l t).content? name = st.content? name := by
    rw [content?, content?, locate?_replace]
    cases hk : st.locate? name with
    | none => rfl
    | some k =>
      rw [Option.bind_some, Option.bind_some, at?_replace]
      cases hc : st.at? k with
      | none => rfl
      | some c =>
        have hkl : k ≠ l := by
          rintro rfl
          exact h (by simp [named?, hne, hk, hc, Option.filter])
        simp [hkl]
  rw [text?, text?, hcontent]

theorem named?_replaceAll (ws : List Write) (name : Text) :
    (st.replaceAll ws).named? name = st.named? name := by
  induction ws generalizing st with
  | nil => rfl
  | cons w ws ih => rw [replaceAll_cons, ih, named?_replace]

theorem refuses_replaceAll (ws : List Write) (name : Text) :
    (st.replaceAll ws).refuses name = st.refuses name := by
  induction ws generalizing st with
  | nil => rfl
  | cons w ws ih => rw [replaceAll_cons, ih, refuses_replace]

theorem text?_replaceAll {ws : List Write} (hne : name ≠ ['-'])
    (h : ∀ w ∈ ws, st.named? name ≠ some w.1) : (st.replaceAll ws).text? name = st.text? name := by
  induction ws generalizing st with
  | nil => rfl
  | cons w ws ih =>
    obtain ⟨hw, hws⟩ := List.forall_mem_cons.mp h
    rw [replaceAll_cons, ih (by simpa only [named?_replace] using hws), text?_replace hne hw]

theorem text?_eq_none_iff : st.text? name = none ↔
    st.content? name = none ∨ ∃ bs, st.content? name = some (.bytes bs) := by
  rw [text?]
  cases st.content? name with
  | none => simp
  | some c => cases c <;> simp [Content.text?]

end ScriptOrder.FileStore
