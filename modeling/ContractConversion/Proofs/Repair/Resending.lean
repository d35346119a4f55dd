import ContractConversion.Proofs.Repair.Merge

/-!
# Resent artifacts change nothing

A fix whose name is accepted already has no influence on a merge: neither on the accepted slots, nor
on the reconciliation of the other names, nor on the fault if there is one. Every stage of a merge
is shown to depend only on the fixes that are `unaccepted`:

* `firstOfEach_unaccepted`, `reconcile_unaccepted`: the first two stages commute with dropping the
  resent fixes;
* `fillSlots_unaccepted`: the last one does not look at them.

So `merge` is a function of the unaccepted fixes alone (`merge_unaccepted`).
-/

namespace ContractConversion
namespace Repair

/-- The fixes of a batch whose name is not accepted. -/
def unaccepted (accepted : List String) (batch : List Artifact) : List Artifact :=
  batch.filter (·.name ∉ accepted)

section

variable {accepted : List String} {batch : List Artifact} {a : Artifact}

@[simp] lemma unaccepted_nil : unaccepted accepted [] = [] := rfl

lemma unaccepted_cons_of_mem (h : a.name ∈ accepted) :
    unaccepted accepted (a :: batch) = unaccepted accepted batch :=
  List.filter_cons_of_neg (by simpa using h)

lemma unaccepted_cons_of_notMem (h : a.name ∉ accepted) :
    unaccepted accepted (a :: batch) = a :: unaccepted accepted batch :=
  List.filter_cons_of_pos (by simpa using h)

/-- Dropping the resent fixes drops exactly the accepted names. -/
lemma names_unaccepted :
    names (unaccepted accepted batch) = (names batch).filter (· ∉ accepted) := by
  rw [names, names, unaccepted, List.filter_map]
  rfl

lemma mem_names_unaccepted {n : String} (h : n ∉ accepted) :
    n ∈ names (unaccepted accepted batch) ↔ n ∈ names batch := by
  rw [names_unaccepted, List.mem_filter]
  simp [h]

/-! ## The first entry of each name -/

/-- Of the names that were seen, only those of the batch matter. -/
lemma firstOfEach_congr {seen seen' : List String}
    (h : ∀ n ∈ names batch, n ∈ seen ↔ n ∈ seen') :
    firstOfEach seen batch = firstOfEach seen' batch := by
  induction batch generalizing seen seen' with
  | nil => rfl
  | cons b rest ih =>
    have hrest : ∀ n ∈ names rest, n ∈ seen ↔ n ∈ seen' :=
      fun n hn => h n (List.mem_cons_of_mem _ hn)
    have hhead : b.name ∈ seen ↔ b.name ∈ seen' := h _ List.mem_cons_self
    rw [firstOfEach, firstOfEach]
    by_cases hb : b.name ∈ seen
    · rw [if_pos hb, if_pos (hhead.mp hb)]
      exact ih hrest
    · rw [if_neg hb, if_neg (fun h => hb (hhead.mpr h))]
      refine congrArg _ (ih fun n hn => ?_)
      rw [List.mem_cons, List.mem_cons, hrest n hn]

/-- A name that the batch does not have may be seen before or not. -/
lemma firstOfEach_cons_of_notMem {seen : List String} {n : String} (h : n ∉ names batch) :
    firstOfEach (n :: seen) batch = firstOfEach seen batch := by
  refine firstOfEach_congr fun m hm => ?_
  rw [List.mem_cons, or_iff_right (fun hmn : m = n => h (hmn ▸ hm))]

/-- A resent fix shadows no other one. -/
lemma firstOfEach_unaccepted (seen : List String) (batch : List Artifact) :
    unaccepted accepted (firstOfEach seen batch) =
      firstOfEach seen (unaccepted accepted batch) := by
  induction batch generalizing seen with
  | nil => rfl
  | cons b rest ih =>
    rw [firstOfEach]
    by_cases hb : b.name ∈ accepted
    · -- the head goes on both sides, and its name is not in what is left
      have hgone : b.name ∉ names (unaccepted accepted rest) := by
        rw [names_unaccepted]
        simp [hb]
      rw [unaccepted_cons_of_mem hb]
      by_cases hseen : b.name ∈ seen
      · rw [if_pos hseen]
        exact ih seen
      · rw [if_neg hseen, unaccepted_cons_of_mem hb, ih, firstOfEach_cons_of_notMem hgone]
    · rw [unaccepted_cons_of_notMem hb, firstOfEach]
      by_cases hseen : b.name ∈ seen
      · rw [if_pos hseen, if_pos hseen]
        exact ih seen
      · rw [if_neg hseen, if_neg hseen, unaccepted_cons_of_notMem hb, ih]

/-! ## Reconciliation -/

variable {order : List String}

/-- A resent fix is never taken for a renamed one. -/
lemma unknownNames_unaccepted (hsub : ∀ n ∈ accepted, n ∈ order) :
    unknownNames (unaccepted accepted batch) order = unknownNames batch order := by
  rw [unknownNames, unknownNames, names_unaccepted, List.filter_filter]
  refine List.filter_congr fun n _ => ?_
  have hunknown : n ∉ order → n ∉ accepted := fun hn hacc => hn (hsub n hacc)
  simpa using hunknown

/-- A resent fix fills no slot that is missing. -/
lemma missingNames_unaccepted :
    missingNames (unaccepted accepted batch) accepted order =
      missingNames batch accepted order := by
  refine List.filter_congr fun n _ => ?_
  by_cases hn : n ∈ accepted
  · simp [hn]
  · simp [hn, mem_names_unaccepted hn]

/-- Renaming passes over a resent fix. -/
lemma rename_unaccepted (hsub : ∀ n ∈ accepted, n ∈ order) {targets : List String}
    (htargets : ∀ t ∈ targets, t ∉ accepted) (batch : List Artifact) :
    unaccepted accepted (rename order targets batch) =
      rename order targets (unaccepted accepted batch) := by
  induction batch generalizing targets with
  | nil => rw [rename, unaccepted_nil, rename]
  | cons b rest ih =>
    cases targets with
    | nil => rw [rename_nil, rename_nil]
    | cons t ts =>
      have hts : ∀ t ∈ ts, t ∉ accepted := fun t ht => htargets t (List.mem_cons_of_mem _ ht)
      by_cases hb : b.name ∈ order
      · rw [rename_cons_of_mem hb]
        by_cases hacc : b.name ∈ accepted
        · rw [unaccepted_cons_of_mem hacc, unaccepted_cons_of_mem hacc]
          exact ih htargets
        · rw [unaccepted_cons_of_notMem hacc, unaccepted_cons_of_notMem hacc,
            rename_cons_of_mem hb]
          exact congrArg _ (ih htargets)
      · -- an unknown name is not accepted, and neither is the one it gets
        have hacc : b.name ∉ accepted := fun hacc => hb (hsub _ hacc)
        have ht : ({ b with name := t } : Artifact).name ∉ accepted :=
          htargets t List.mem_cons_self
        rw [rename_cons_of_notMem hb, unaccepted_cons_of_notMem ht,
          unaccepted_cons_of_notMem hacc, rename_cons_of_notMem hb]
        exact congrArg _ (ih hts)

/-- A resent fix has no part in the reconciliation of the other names. -/
theorem reconcile_unaccepted (hsub : ∀ n ∈ accepted, n ∈ order) (batch : List Artifact) :
    (reconcile batch accepted order).map (unaccepted accepted) =
      reconcile (unaccepted accepted batch) accepted order := by
  rw [reconcile, reconcile, unknownNames_unaccepted hsub, missingNames_unaccepted]
  cases hunknown : unknownNames batch order with
  | nil => rfl
  | cons first rest =>
    dsimp only
    by_cases hmissing : missingNames batch accepted order = []
    · rw [if_pos hmissing, if_pos hmissing]
      rfl
    · rw [if_neg hmissing, if_neg hmissing]
      cases htargets : targets? (first :: rest) (missingNames batch accepted order) with
      | none => rfl
      | some targets =>
        -- the targets are missing names, so none of them is accepted
        have hopen : ∀ t ∈ targets, t ∉ accepted := fun t ht =>
          (mem_missingNames.mp ((targets?_some htargets).2.2 t ht)).2.1
        exact congrArg Except.ok (rename_unaccepted hsub hopen batch)

end

/-! ## Filling the slots -/

/-- A slot that is not accepted is supplied by an unaccepted fix. -/
lemma supplier?_unaccepted (accepted fixes : List Artifact) (name : String) :
    supplier? accepted (unaccepted (names accepted) fixes) name =
      supplier? accepted fixes name := by
  by_cases hname : name ∈ names accepted
  · -- the accepted artifact comes first
    obtain ⟨a, ha⟩ := Option.ne_none_iff_exists'.mp (fun h => lastNamed?_eq_none.mp h hname)
    rw [supplier?, supplier?, ha, Option.some_or, Option.some_or]
  · rw [supplier?_of_not_accepted hname, supplier?_of_not_accepted hname, lastNamed?, lastNamed?,
      unaccepted, ← List.filter_reverse, List.find?_filter]
    congr 1
    funext a
    by_cases h : a.name = name <;> simp [h, hname]

/-- Resent fixes fill no slot. -/
lemma fillSlots_unaccepted (accepted fixes : List Artifact) (position : ℕ) (order : List String) :
    fillSlots accepted (unaccepted (names accepted) fixes) position order =
      fillSlots accepted fixes position order := by
  induction order generalizing fixes position with
  | nil => rfl
  | cons name rest ih =>
    -- a used fix is dropped from the fixes, which commutes with dropping the resent ones
    have hothers : (unaccepted (names accepted) fixes).filter (·.name ≠ name) =
        unaccepted (names accepted) (fixes.filter (·.name ≠ name)) := by
      rw [unaccepted, unaccepted, List.filter_comm]
    have hsupplier := supplier?_unaccepted accepted fixes name
    rw [supplier?, supplier?] at hsupplier
    rw [fillSlots, fillSlots, hsupplier, hothers]
    dsimp only
    rw [ih]

/-! ## Merging -/

/-- A merge depends on the unaccepted fixes alone. -/
theorem merge_unaccepted {accepted : List Artifact} {order : List String}
    (hsub : ∀ n ∈ names accepted, n ∈ order) (batch : List Artifact) :
    merge accepted (unaccepted (names accepted) batch) order = merge accepted batch order := by
  rw [merge, merge, ← firstOfEach_unaccepted, ← reconcile_unaccepted hsub]
  cases reconcile (firstOfEach [] batch) (names accepted) order with
  | error fault => rfl
  | ok fixes => exact fillSlots_unaccepted accepted fixes 0 order

/-- **An accepted artifact cannot be influenced by resending it.** Two batches with the same
unaccepted fixes are merged to the same result, be it a list or a fault, and their other names are
reconciled in the same way. -/
theorem merge_eq_of_unaccepted_eq {accepted batch batch' : List Artifact} {order : List String}
    (hsub : ∀ n ∈ names accepted, n ∈ order)
    (h : unaccepted (names accepted) batch = unaccepted (names accepted) batch') :
    merge accepted batch order = merge accepted batch' order ∧
      (reconcile (firstOfEach [] batch) (names accepted) order).map
          (unaccepted (names accepted)) =
        (reconcile (firstOfEach [] batch') (names accepted) order).map
          (unaccepted (names accepted)) := by
  constructor
  · rw [← merge_unaccepted hsub batch, ← merge_unaccepted hsub batch', h]
  · rw [reconcile_unaccepted hsub, reconcile_unaccepted hsub, firstOfEach_unaccepted,
      firstOfEach_unaccepted, h]

/-- The vault is sent again with other code, twice and in front of a renamed token. -/
theorem merge_eq_of_unaccepted_eq_resent :
    let accepted : List Artifact := [{ name := "Vault", code := "v1", validated := true }]
    let token : Artifact := { name := "TokenV2", code := "t" }
    let batch : List Artifact :=
      [{ name := "Vault", code := "v2" }, token, { name := "Vault", code := "v3" }]
    let order := ["Vault", "Token"]
    merge accepted batch order = merge accepted [token] order ∧
      (reconcile (firstOfEach [] batch) (names accepted) order).map
          (unaccepted (names accepted)) =
        (reconcile (firstOfEach [] [token]) (names accepted) order).map
          (unaccepted (names accepted)) :=
  merge_eq_of_unaccepted_eq (by decide) (by decide)

end Repair
end ContractConversion
