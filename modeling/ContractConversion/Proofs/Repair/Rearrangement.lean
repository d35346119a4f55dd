import ContractConversion.Proofs.Repair.Outcome

/-!
# The order of the fixes does not matter

The fixes of a batch of distinct names may stand in any order. The stages of a merge are taken in
turn:

* `targets?_of_perm`: what an unknown name stands for depends on this name alone, and whether all
  unknown names stand for something does not depend on which of them comes first;
* `reconcile_of_perm`: so the fixes get the same names wherever they stand;
* `fillSlots_of_perm`: and a slot finds its fix wherever it stands.

`merge_of_perm` puts them together. Nothing is asked of the accepted artifacts and of the order of
the slots: either may have a name twice.
-/

namespace ContractConversion

/-- Two faults are of the same kind and about the same names, as far as the order of the fixes does
not show in them: the first unknown name may be another one, and unknown names may be listed in
another order. -/
inductive MergeFault.Alike : MergeFault → MergeFault → Prop
  | missing (name : String) : Alike (.missing name) (.missing name)
  | unexpected (first first' : String) : Alike (.unexpected first) (.unexpected first')
  | ambiguous {unknown unknown' : List String} (missing : List String)
      (h : unknown.Perm unknown') : Alike (.ambiguous unknown missing) (.ambiguous unknown' missing)

lemma MergeFault.Alike.refl (fault : MergeFault) : fault.Alike fault := by
  cases fault with
  | missing name => exact .missing name
  | unexpected first => exact .unexpected first first
  | ambiguous unknown missing => exact .ambiguous missing (List.Perm.refl unknown)

namespace Repair

/-! ## What an unknown name stands for -/

section Matching

variable {missing claimed unknown unknown' targets : List String}

/-- The missing names that a name may stand for. -/
def candidates (missing : List String) (name : String) : List String :=
  missing.filter (normalForm · = normalForm name)

/-- The missing name that a name stands for, if there is one that it may stand for. -/
def standsFor (missing : List String) (name : String) : String :=
  (candidates missing name).headD name

/-- Unknown names are matched exactly if each has a single candidate and no two share it; and then
each gets this candidate. Nothing here looks at the order of the unknown names. -/
lemma matchNames_eq_some_iff :
    matchNames missing claimed unknown = some targets ↔
      (∀ u ∈ unknown, candidates missing u = [standsFor missing u]) ∧
        targets = unknown.map (standsFor missing) ∧ targets.Nodup ∧
        ∀ t ∈ targets, t ∉ claimed := by
  -- what the head claims is what its tail may not have, which is the distinctness of the targets
  induction unknown generalizing claimed targets with
  | nil =>
    constructor
    · intro h
      obtain rfl : [] = targets := by simpa [matchNames] using h
      simp
    · rintro ⟨-, rfl, -, -⟩
      simp [matchNames]
  | cons name rest ih =>
    rw [matchNames]
    constructor
    · intro h
      split at h
      · next only honly =>
        have hcandidates : candidates missing name = [only] := honly
        have hstands : standsFor missing name = only := by
          rw [standsFor, hcandidates]
          rfl
        split at h
        · exact absurd h (by simp)
        · next hclaimed =>
          obtain ⟨others, hothers, rfl⟩ := Option.map_eq_some_iff.mp h
          obtain ⟨hsingle, hmap, hnodup, hfree⟩ := ih.mp hothers
          refine ⟨?_, ?_, ?_, ?_⟩
          · intro u hu
            rcases List.mem_cons.mp hu with rfl | hu
            · rw [hcandidates, hstands]
            · exact hsingle u hu
          · rw [List.map_cons, hstands, ← hmap]
          · rw [List.nodup_cons]
            exact ⟨fun hmem => hfree only hmem List.mem_cons_self, hnodup⟩
          · intro t ht
            rcases List.mem_cons.mp ht with rfl | ht
            · exact hclaimed
            · exact fun hc => hfree t ht (List.mem_cons_of_mem _ hc)
      · exact absurd h (by simp)
    · rintro ⟨hsingle, rfl, hnodup, hfree⟩
      rw [List.map_cons, List.nodup_cons] at hnodup
      have hhead : missing.filter (normalForm · = normalForm name) = [standsFor missing name] :=
        hsingle name List.mem_cons_self
      have hclaimed : standsFor missing name ∉ claimed := hfree _ List.mem_cons_self
      have hothers : matchNames missing (standsFor missing name :: claimed) rest =
          some (rest.map (standsFor missing)) := by
        refine ih.mpr ⟨fun u hu => hsingle u (List.mem_cons_of_mem _ hu), rfl, hnodup.2, ?_⟩
        intro t ht hc
        rcases List.mem_cons.mp hc with rfl | hc
        · exact hnodup.1 ht
        · exact hfree t (List.mem_cons_of_mem _ ht) hc
      rw [hhead]
      show (if standsFor missing name ∈ claimed then none
        else (matchNames missing (standsFor missing name :: claimed) rest).map
          (standsFor missing name :: ·)) = some ((name :: rest).map (standsFor missing))
      rw [if_neg hclaimed, hothers]
      rfl

lemma matchNames_of_perm (h : unknown.Perm unknown')
    (htargets : matchNames missing [] unknown = some targets) :
    targets = unknown.map (standsFor missing) ∧
      matchNames missing [] unknown' = some (unknown'.map (standsFor missing)) := by
  obtain ⟨hsingle, rfl, hnodup, -⟩ := matchNames_eq_some_iff.mp htargets
  refine ⟨rfl, matchNames_eq_some_iff.mpr ⟨?_, rfl, ?_, by simp⟩⟩
  · intro u hu
    exact hsingle u (h.mem_iff.mpr hu)
  · exact (h.map _).nodup_iff.mp hnodup

/-- **What an unknown name stands for does not depend on the order of the unknown names.** -/
theorem targets?_of_perm (h : unknown.Perm unknown')
    (htargets : targets? unknown missing = some targets) :
    ∃ ρ : String → String, targets = unknown.map ρ ∧
      targets? unknown' missing = some (unknown'.map ρ) := by
  by_cases hpair : unknown.length = 1 ∧ missing.length = 1
  · -- elimination: one name alone has no other order
    obtain ⟨⟨first, rfl⟩, only, rfl⟩ :=
      hpair.imp List.length_eq_one_iff.mp List.length_eq_one_iff.mp
    obtain rfl := List.singleton_perm.mp h
    exact ⟨fun _ => only, (Option.some.inj htargets).symm, rfl⟩
  · have hpair' : ¬ (unknown'.length = 1 ∧ missing.length = 1) := by
      rwa [← h.length_eq]
    rw [targets?_eq_matchNames hpair] at htargets
    obtain ⟨hmap, hmatch⟩ := matchNames_of_perm h htargets
    exact ⟨standsFor missing, hmap, (targets?_eq_matchNames hpair').trans hmatch⟩

end Matching

/-! ## Reconciliation -/

variable {batch batch' : List Artifact}

lemma unknownNames_of_perm (h : batch.Perm batch') (order : List String) :
    (unknownNames batch order).Perm (unknownNames batch' order) :=
  (h.map _).filter _

/-- Which names are missing depends only on which names the batch has. -/
lemma missingNames_of_perm (h : batch.Perm batch') (accepted order : List String) :
    missingNames batch accepted order = missingNames batch' accepted order := by
  have hnames : ∀ n, n ∈ names batch ↔ n ∈ names batch' := fun n => (h.map _).mem_iff
  unfold missingNames
  refine List.filter_congr fun n _ => ?_
  simp only [hnames n]

/-- Targets that are given by a function on names rename every artifact by this function. -/
lemma rename_map (order : List String) (ρ : String → String) (batch : List Artifact) :
    rename order ((unknownNames batch order).map ρ) batch =
      batch.map (relabel fun n => if n ∈ order then n else ρ n) := by
  induction batch with
  | nil => rw [rename, List.map_nil]
  | cons a rest ih =>
    by_cases ha : a.name ∈ order
    · have hsame : relabel (fun n => if n ∈ order then n else ρ n) a = a :=
        relabel_of_eq (if_pos ha)
      rw [unknownNames_cons_of_mem ha, rename_cons_of_mem ha, List.map_cons, hsame, ← ih]
    · have hnew : relabel (fun n => if n ∈ order then n else ρ n) a =
          { a with name := ρ a.name } := by
        rw [relabel, if_neg ha]
      rw [unknownNames_cons_of_notMem ha, List.map_cons, List.map_cons, rename_cons_of_notMem ha,
        hnew, ih]

/-- **Reconciliation does not depend on the order of the fixes.** It gives the same fixes in another
order, or faults that are alike. -/
theorem reconcile_of_perm (h : batch.Perm batch') (accepted order : List String) :
    (∃ fixes fixes', reconcile batch accepted order = .ok fixes ∧
      reconcile batch' accepted order = .ok fixes' ∧ fixes.Perm fixes') ∨
    ∃ fault fault', reconcile batch accepted order = .error fault ∧
      reconcile batch' accepted order = .error fault' ∧ fault.Alike fault' := by
  have hunknown := unknownNames_of_perm h order
  have hmissing := missingNames_of_perm h accepted order
  by_cases hopen : unknownNames batch order = [] ∨ missingNames batch accepted order ≠ []
  · have hopen' : unknownNames batch' order = [] ∨ missingNames batch' accepted order ≠ [] := by
      refine hopen.imp (fun hnil => ?_) (fun hne => hmissing ▸ hne)
      rw [hnil] at hunknown
      exact hunknown.nil_eq.symm
    rw [reconcile_eq hopen, reconcile_eq hopen', ← hmissing]
    cases htargets : targets? (unknownNames batch order) (missingNames batch accepted order) with
    | some targets =>
      obtain ⟨ρ, rfl, htargets'⟩ := targets?_of_perm hunknown htargets
      left
      refine ⟨_, _, rfl, by rw [htargets'], ?_⟩
      rw [rename_map, rename_map]
      exact h.map _
    | none =>
      -- targets in the other order would be targets in this one
      have htargets' : targets? (unknownNames batch' order) (missingNames batch accepted order) =
          none := by
        rw [Option.eq_none_iff_forall_ne_some]
        intro targets hsome
        obtain ⟨ρ, -, hback⟩ := targets?_of_perm hunknown.symm hsome
        rw [htargets] at hback
        exact absurd hback (by simp)
      right
      exact ⟨_, _, rfl, by rw [htargets'], .ambiguous _ hunknown⟩
  · obtain ⟨hne, hnil⟩ := not_or.mp hopen
    rw [not_not] at hnil
    obtain ⟨first, rest, hfirst⟩ := List.exists_cons_of_ne_nil hne
    obtain ⟨first', rest', hfirst'⟩ :
        ∃ first' rest', unknownNames batch' order = first' :: rest' := by
      refine List.exists_cons_of_ne_nil fun hnil' => hne ?_
      rw [hnil'] at hunknown
      exact hunknown.eq_nil
    right
    refine ⟨.unexpected first, .unexpected first', ?_, ?_, .unexpected first first'⟩
    · unfold reconcile
      simp [hfirst, hnil]
    · unfold reconcile
      simp [hfirst', ← hmissing, hnil]

/-! ## Filling the slots -/

/-- Among fixes of distinct names each is found under its name, wherever it stands. -/
lemma lastNamed?_of_perm (hnodup : (names batch).Nodup) (h : batch.Perm batch') (name : String) :
    lastNamed? batch name = lastNamed? batch' name := by
  have hnames : (names batch).Perm (names batch') := h.map _
  cases hfound : lastNamed? batch name with
  | none =>
    have hnot : name ∉ names batch' := fun hmem =>
      lastNamed?_eq_none.mp hfound (hnames.mem_iff.mpr hmem)
    exact (lastNamed?_eq_none.mpr hnot).symm
  | some a =>
    obtain ⟨hmem, rfl⟩ := lastNamed?_some hfound
    exact (lastNamed?_of_mem (hnames.nodup_iff.mp hnodup) (h.mem_iff.mp hmem)).symm

/-- **The slots are filled alike, in whatever order the fixes stand.** -/
theorem fillSlots_of_perm (accepted : List Artifact) {fixes fixes' : List Artifact}
    (hnodup : (names fixes).Nodup) (h : fixes.Perm fixes') (position : ℕ) (order : List String) :
    fillSlots accepted fixes position order = fillSlots accepted fixes' position order := by
  -- a fix that is used leaves the fixes, so the induction is for all of them
  induction order generalizing fixes fixes' position with
  | nil => rfl
  | cons name rest ih =>
    have hothers : (names (fixes.filter (·.name ≠ name))).Nodup :=
      hnodup.sublist (List.filter_sublist.map _)
    have hrest : fillSlots accepted (fixes.filter (·.name ≠ name)) (position + 1) rest =
        fillSlots accepted (fixes'.filter (·.name ≠ name)) (position + 1) rest :=
      ih hothers (h.filter _) (position + 1)
    unfold fillSlots
    rw [lastNamed?_of_perm hnodup h name]
    dsimp only
    rw [hrest]

/-! ## Merging -/

/-- In a batch of distinct names every fix is the first of its name. -/
lemma firstOfEach_of_nodup {seen : List String} (hnodup : (names batch).Nodup)
    (hseen : ∀ n ∈ names batch, n ∉ seen) : firstOfEach seen batch = batch := by
  induction batch generalizing seen with
  | nil => rfl
  | cons a rest ih =>
    rw [names_cons, List.nodup_cons] at hnodup
    have ha : a.name ∉ seen := hseen a.name List.mem_cons_self
    rw [firstOfEach, if_neg ha, ih hnodup.2]
    intro n hn hmem
    rcases List.mem_cons.mp hmem with rfl | hmem
    · exact hnodup.1 hn
    · exact hseen n (List.mem_cons_of_mem _ hn) hmem

/-- **The order in which fixes are listed does not matter.** Two batches of distinct names that list
the same fixes in different orders are merged to the same artifacts, or both are refused with faults
that are alike: of the same kind, with the same missing slot or the same names that cannot be told
apart. -/
theorem merge_of_perm (accepted : List Artifact) (order : List String)
    (hnodup : (names batch).Nodup) (h : batch.Perm batch') :
    (∃ merged, merge accepted batch order = .ok merged ∧
      merge accepted batch' order = .ok merged) ∨
    ∃ fault fault', merge accepted batch order = .error fault ∧
      merge accepted batch' order = .error fault' ∧ fault.Alike fault' := by
  have hnodup' : (names batch').Nodup := (h.map _).nodup_iff.mp hnodup
  unfold merge
  rw [firstOfEach_of_nodup hnodup (by simp), firstOfEach_of_nodup hnodup' (by simp)]
  rcases reconcile_of_perm h (names accepted) order with
    ⟨fixes, fixes', hfixes, hfixes', hperm⟩ | ⟨fault, fault', hfault, hfault', halike⟩
  · -- reconciled fixes have distinct names again, so that each slot finds its own
    have hdistinct : (names fixes).Nodup := by
      obtain ⟨ρ, rfl, hρ⟩ := reconcile_ok hnodup hfixes
      rw [names_map_relabel]
      exact hnodup.map_on hρ.inj
    have hsame := fillSlots_of_perm accepted hdistinct hperm 0 order
    rw [hfixes, hfixes']
    show (∃ merged, fillSlots accepted fixes 0 order = .ok merged ∧
        fillSlots accepted fixes' 0 order = .ok merged) ∨
      ∃ fault fault', fillSlots accepted fixes 0 order = .error fault ∧
        fillSlots accepted fixes' 0 order = .error fault' ∧ fault.Alike fault'
    rw [← hsame]
    cases hfilled : fillSlots accepted fixes 0 order with
    | ok merged => exact Or.inl ⟨merged, rfl, rfl⟩
    | error fault =>
      exact Or.inr ⟨fault, fault, rfl, rfl, .refl fault⟩
  · right
    exact ⟨fault, fault', by rw [hfault]; rfl, by rw [hfault']; rfl, halike⟩

/-- Two renamed fixes and one that is sent again, in one order and in the other. -/
theorem merge_of_perm_renamed :
    let accepted : List Artifact := [{ name := "Vault", code := "v", validated := true }]
    let batch : List Artifact :=
      [{ name := "price-oracle", code := "o" }, { name := "Vault", code := "w" },
        { name := "token_sale", code := "t" }]
    let order := ["Vault", "TokenSale", "PriceOracle"]
    ((names batch).Nodup ∧ batch.Perm batch.reverse) ∧
      ∃ merged, merge accepted batch order = .ok merged ∧
        merge accepted batch.reverse order = .ok merged := by
  intro accepted batch order
  have hnodup : (names batch).Nodup := by decide
  have hperm : batch.Perm batch.reverse := batch.reverse_perm.symm
  refine ⟨⟨hnodup, hperm⟩, ?_⟩
  rcases merge_of_perm accepted order hnodup hperm with hmerged | ⟨fault, fault', hfault, -⟩
  · exact hmerged
  · cases hfault

end Repair
end ContractConversion
