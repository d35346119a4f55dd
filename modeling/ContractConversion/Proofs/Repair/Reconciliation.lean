import ContractConversion.Repair.Merge
import Mathlib.Data.List.Nodup
import Mathlib.Logic.Function.Basic
import Mathlib.Tactic.Lemma

/-!
# Reconciling the names of a batch

Pure facts about the first two stages of a merge:

* `firstOfEach` keeps, of each name, the first entry, so the kept names are distinct;
* `reconcile` acts on such a batch as one function on names (`relabel`), which leaves the names of
  the order alone and sends the others, one to one, to missing names (`Relabelling`).
-/

namespace ContractConversion
namespace Repair

@[simp] lemma names_nil : names [] = [] := rfl

@[simp] lemma names_cons (a : Artifact) (rest : List Artifact) :
    names (a :: rest) = a.name :: names rest := rfl

lemma mem_names {batch : List Artifact} {name : String} :
    name ∈ names batch ↔ ∃ a ∈ batch, a.name = name := by
  simp only [names, List.mem_map]

/-- An artifact is determined by its name within a list of distinct names. -/
lemma eq_of_name_eq {batch : List Artifact} (hnodup : (names batch).Nodup) {a b : Artifact}
    (ha : a ∈ batch) (hb : b ∈ batch) (h : a.name = b.name) : a = b :=
  List.inj_on_of_nodup_map hnodup ha hb h

/-! ## The first entry of each name -/

/-- At place `j` of the batch stands `a`, and no entry before it has the name of `a`. -/
def FirstAt (batch : List Artifact) (j : ℕ) (a : Artifact) : Prop :=
  batch[j]? = some a ∧ ∀ k < j, ∀ b : Artifact, batch[k]? = some b → b.name ≠ a.name

/-- The head is at place 0, and every other place moves up by one. -/
lemma exists_firstAt_cons {b : Artifact} {rest : List Artifact} {a : Artifact} :
    (∃ j, FirstAt (b :: rest) j a) ↔ b = a ∨ b.name ≠ a.name ∧ ∃ j, FirstAt rest j a := by
  constructor
  · rintro ⟨j, hj, hfirst⟩
    cases j with
    | zero => exact Or.inl (by simpa using hj)
    | succ j =>
      refine Or.inr ⟨hfirst 0 (by omega) b rfl, j, by simpa using hj, fun k hk c hc => ?_⟩
      exact hfirst (k + 1) (by omega) c (by simpa using hc)
  · rintro (rfl | ⟨hne, j, hj, hfirst⟩)
    · exact ⟨0, rfl, fun k hk => absurd hk (by omega)⟩
    · refine ⟨j + 1, by simpa using hj, fun k hk c hc => ?_⟩
      cases k with
      | zero =>
        obtain rfl : b = c := by simpa using hc
        exact hne
      | succ k => exact hfirst k (by omega) c (by simpa using hc)

/-- An entry is kept exactly if it is the first of its name and its name is not seen before. -/
lemma mem_firstOfEach {seen : List String} {batch : List Artifact} {a : Artifact} :
    a ∈ firstOfEach seen batch ↔ a.name ∉ seen ∧ ∃ j, FirstAt batch j a := by
  induction batch generalizing seen with
  | nil => simp [firstOfEach, FirstAt]
  | cons b rest ih =>
    rw [firstOfEach, exists_firstAt_cons]
    by_cases hseen : b.name ∈ seen
    · -- the head is dropped, and `a` has another name, as its own is not seen
      rw [if_pos hseen, ih]
      constructor
      · rintro ⟨ha, hrest⟩
        exact ⟨ha, Or.inr ⟨fun h => ha (h ▸ hseen), hrest⟩⟩
      · rintro ⟨ha, rfl | ⟨-, hrest⟩⟩
        · exact absurd hseen ha
        · exact ⟨ha, hrest⟩
    · -- the head is kept, and from here on its name is seen
      rw [if_neg hseen, List.mem_cons, ih, List.mem_cons, not_or]
      constructor
      · rintro (rfl | ⟨⟨hne, ha⟩, hrest⟩)
        · exact ⟨hseen, Or.inl rfl⟩
        · exact ⟨ha, Or.inr ⟨fun h => hne h.symm, hrest⟩⟩
      · rintro ⟨ha, rfl | ⟨hne, hrest⟩⟩
        · exact Or.inl rfl
        · exact Or.inr ⟨⟨fun h => hne h.symm, ha⟩, hrest⟩

lemma mem_of_mem_firstOfEach {seen : List String} {batch : List Artifact} {a : Artifact}
    (ha : a ∈ firstOfEach seen batch) : a ∈ batch := by
  obtain ⟨-, j, hj, -⟩ := mem_firstOfEach.mp ha
  exact List.mem_of_getElem? hj

/-- The names that are kept are distinct. -/
lemma nodup_names_firstOfEach (seen : List String) (batch : List Artifact) :
    (names (firstOfEach seen batch)).Nodup := by
  induction batch generalizing seen with
  | nil => simp [firstOfEach]
  | cons b rest ih =>
    rw [firstOfEach]
    by_cases hseen : b.name ∈ seen
    · rw [if_pos hseen]
      exact ih seen
    · rw [if_neg hseen, names_cons, List.nodup_cons]
      refine ⟨fun hmem => ?_, ih (b.name :: seen)⟩
      obtain ⟨a, ha, hname⟩ := mem_names.mp hmem
      have hnot := (mem_firstOfEach.mp ha).1
      exact hnot (by rw [hname]; exact List.mem_cons_self)

/-! ## Matching unknown names with missing ones -/

/-- The names that `matchNames` finds are distinct missing names that nothing claimed. -/
lemma matchNames_some {missing claimed unknown targets : List String}
    (h : matchNames missing claimed unknown = some targets) :
    targets.length = unknown.length ∧ targets.Nodup ∧ ∀ t ∈ targets, t ∈ missing ∧ t ∉ claimed := by
  -- the claimed names grow along the induction, which keeps the targets distinct
  induction unknown generalizing claimed targets with
  | nil =>
    obtain rfl : [] = targets := by simpa [matchNames] using h
    simp
  | cons name rest ih =>
    rw [matchNames] at h
    split at h
    · next only honly =>
      split at h
      · exact absurd h (by simp)
      · next hclaimed =>
        obtain ⟨others, hothers, rfl⟩ := Option.map_eq_some_iff.mp h
        obtain ⟨hlen, hnodup, hmem⟩ := ih hothers
        have honly_mem : only ∈ missing :=
          (List.mem_filter.mp (honly ▸ List.mem_singleton_self only)).1
        refine ⟨by simp [hlen], List.nodup_cons.mpr ⟨fun h => ?_, hnodup⟩, fun t ht => ?_⟩
        · exact (hmem only h).2 List.mem_cons_self
        · rcases List.mem_cons.mp ht with rfl | ht
          · exact ⟨honly_mem, hclaimed⟩
          · exact ⟨(hmem t ht).1, fun hc => (hmem t ht).2 (List.mem_cons_of_mem _ hc)⟩
    · exact absurd h (by simp)

/-- Each unknown name gets a missing name of its own. -/
lemma targets?_some {unknown missing targets : List String}
    (h : targets? unknown missing = some targets) :
    targets.length = unknown.length ∧ targets.Nodup ∧ ∀ t ∈ targets, t ∈ missing := by
  rw [targets?.eq_def] at h
  split at h
  · obtain rfl := Option.some.inj h
    simp
  · obtain ⟨hlen, hnodup, hmem⟩ := matchNames_some h
    exact ⟨hlen, hnodup, fun t ht => (hmem t ht).1⟩

/-! ## Renaming as a function on names -/

/-- The artifact under the name that `ρ` gives to its own. -/
def relabel (ρ : String → String) (a : Artifact) : Artifact :=
  { a with name := ρ a.name }

@[simp] lemma relabel_name (ρ : String → String) (a : Artifact) :
    (relabel ρ a).name = ρ a.name := rfl

lemma relabel_of_eq {ρ : String → String} {a : Artifact} (h : ρ a.name = a.name) :
    relabel ρ a = a := by
  rw [relabel, h]

@[simp] lemma names_map_relabel (ρ : String → String) (batch : List Artifact) :
    names (batch.map (relabel ρ)) = (names batch).map ρ := by
  simp only [names, List.map_map]
  rfl

section Cons

variable {order : List String} {a : Artifact}

lemma unknownNames_cons_of_mem (ha : a.name ∈ order) (rest : List Artifact) :
    unknownNames (a :: rest) order = unknownNames rest order := by
  simp [unknownNames, ha]

lemma unknownNames_cons_of_notMem (ha : a.name ∉ order) (rest : List Artifact) :
    unknownNames (a :: rest) order = a.name :: unknownNames rest order := by
  simp [unknownNames, ha]

/-- Without targets nothing is renamed. -/
lemma rename_nil (order : List String) (batch : List Artifact) : rename order [] batch = batch := by
  cases batch <;> rfl

lemma rename_cons_of_mem (ha : a.name ∈ order) (targets : List String) (rest : List Artifact) :
    rename order targets (a :: rest) = a :: rename order targets rest := by
  cases targets with
  | nil => rw [rename_nil, rename_nil]
  | cons t ts => rw [rename, if_pos ha]

lemma rename_cons_of_notMem (ha : a.name ∉ order) (t : String) (ts : List String)
    (rest : List Artifact) :
    rename order (t :: ts) (a :: rest) = { a with name := t } :: rename order ts rest := by
  rw [rename, if_neg ha]

end Cons

/-- Renaming a batch of distinct names is one function on names. -/
lemma rename_eq_map {order : List String} {batch : List Artifact} (hnodup : (names batch).Nodup)
    {targets : List String} (hlen : targets.length = (unknownNames batch order).length) :
    ∃ ρ : String → String, rename order targets batch = batch.map (relabel ρ) ∧
      (∀ n ∈ order, ρ n = n) ∧ (unknownNames batch order).map ρ = targets := by
  induction batch generalizing targets with
  | nil =>
    obtain rfl : targets = [] := by simpa [unknownNames] using hlen
    exact ⟨id, by simp [rename], fun _ _ => rfl, by simp [unknownNames]⟩
  | cons a rest ih =>
    rw [names_cons, List.nodup_cons] at hnodup
    obtain ⟨ha, hrest⟩ := hnodup
    by_cases horder : a.name ∈ order
    · rw [unknownNames_cons_of_mem horder] at hlen ⊢
      obtain ⟨ρ, hmap, hid, htargets⟩ := ih hrest hlen
      refine ⟨ρ, ?_, hid, htargets⟩
      rw [List.map_cons, relabel_of_eq (hid _ horder), ← hmap, rename_cons_of_mem horder]
    · rw [unknownNames_cons_of_notMem horder] at hlen ⊢
      cases targets with
      | nil => simp at hlen
      | cons t ts =>
        obtain ⟨ρ, hmap, hid, htargets⟩ := ih hrest (by simpa using hlen)
        -- the name of the head occurs nowhere else, so `ρ` may be changed there
        have hother : ∀ n ∈ names rest, Function.update ρ a.name t n = ρ n := fun n hn =>
          Function.update_of_ne (fun h : n = a.name => ha (h ▸ hn)) _ _
        refine ⟨Function.update ρ a.name t, ?_, fun n hn => ?_, ?_⟩
        · rw [rename_cons_of_notMem horder, hmap, List.map_cons, relabel, Function.update_self]
          refine congrArg _ (List.map_congr_left fun b hb => ?_)
          rw [relabel, relabel, hother b.name (List.mem_map_of_mem hb)]
        · rw [Function.update_of_ne (fun h : n = a.name => horder (h ▸ hn)), hid n hn]
        · rw [List.map_cons, Function.update_self, ← htargets]
          refine congrArg _ (List.map_congr_left fun n hn => hother n ?_)
          exact (List.mem_filter.mp hn).1

/-! ## Reconciliation -/

/-- What a reconciliation of a batch does to names: those of the order stay, and every other one
gets a name of the order that is not accepted and that the batch did not have; no two names become
one. -/
structure Relabelling (batch : List Artifact) (accepted order : List String)
    (ρ : String → String) : Prop where
  known : ∀ n ∈ order, ρ n = n
  mem_order : ∀ n ∈ names batch, ρ n ∈ order
  missing : ∀ n ∈ names batch, n ∉ order → ρ n ∉ accepted ∧ ρ n ∉ names batch
  inj : ∀ n ∈ names batch, ∀ m ∈ names batch, ρ n = ρ m → n = m

lemma mem_missingNames {batch : List Artifact} {accepted order : List String} {n : String} :
    n ∈ missingNames batch accepted order ↔ n ∈ order ∧ n ∉ accepted ∧ n ∉ names batch := by
  simp [missingNames]

lemma mem_unknownNames {batch : List Artifact} {order : List String} {n : String} :
    n ∈ unknownNames batch order ↔ n ∈ names batch ∧ n ∉ order := by
  simp [unknownNames]

/-- A batch of distinct names is reconciled by a relabelling. -/
theorem reconcile_ok {batch fixes : List Artifact} {accepted order : List String}
    (hnodup : (names batch).Nodup) (h : reconcile batch accepted order = .ok fixes) :
    ∃ ρ, fixes = batch.map (relabel ρ) ∧ Relabelling batch accepted order ρ := by
  rw [reconcile] at h
  split at h
  · next hunknown =>
    obtain rfl := Except.ok.inj h
    have hknown : ∀ n ∈ names batch, n ∈ order := by
      intro n hn
      by_contra hno
      have := mem_unknownNames.mpr ⟨hn, hno⟩
      rw [hunknown] at this
      exact absurd this (by simp)
    refine ⟨id, ?_, fun _ _ => rfl, hknown, fun n hn hno => absurd (hknown n hn) hno,
      fun _ _ _ _ h => h⟩
    exact (List.map_id _).symm
  · next first rest hunknown =>
    split at h
    · exact absurd h (by simp)
    · split at h
      · next targets htargets =>
        obtain rfl := Except.ok.inj h
        obtain ⟨hlen, htnodup, htmem⟩ := targets?_some htargets
        rw [← hunknown] at hlen
        obtain ⟨ρ, hmap, hid, hρ⟩ := rename_eq_map hnodup hlen
        -- an unknown name becomes a missing one
        have hmissing : ∀ n ∈ names batch, n ∉ order → ρ n ∈ missingNames batch accepted order := by
          intro n hn hno
          refine htmem _ ?_
          rw [← hρ]
          exact List.mem_map_of_mem (mem_unknownNames.mpr ⟨hn, hno⟩)
        refine ⟨ρ, hmap, hid, fun n hn => ?_, fun n hn hno => ?_, fun n hn m hm hnm => ?_⟩
        · by_cases horder : n ∈ order
          · rw [hid n horder]
            exact horder
          · exact (mem_missingNames.mp (hmissing n hn horder)).1
        · exact (mem_missingNames.mp (hmissing n hn hno)).2
        · -- a known name stays in the batch, where no missing name is
          by_cases hno : n ∈ order <;> by_cases hmo : m ∈ order
          · rwa [hid n hno, hid m hmo] at hnm
          · rw [hid n hno] at hnm
            exact absurd (hnm ▸ hn) (mem_missingNames.mp (hmissing m hm hmo)).2.2
          · rw [hid m hmo] at hnm
            exact absurd (hnm ▸ hm) (mem_missingNames.mp (hmissing n hn hno)).2.2
          · -- both are unknown, and the targets are distinct
            rw [← hρ] at htnodup
            exact List.inj_on_of_nodup_map htnodup (mem_unknownNames.mpr ⟨hn, hno⟩)
              (mem_unknownNames.mpr ⟨hm, hmo⟩) hnm
      · exact absurd h (by simp)

end Repair
end ContractConversion
