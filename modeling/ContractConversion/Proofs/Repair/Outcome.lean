import ContractConversion.Proofs.Repair.Merge
import Mathlib.Data.List.Find
import Mathlib.Data.List.Perm.Subperm

/-!
# What a merge comes to

Two lists of names decide how a merge ends: the names of the batch that the order does not know, and
the names of the order that nobody supplies. The stages of a merge are taken in turn:

* `exists_matchNames`, `mem_targets_iff`: when the names are matched, and which missing names are
  used up;
* `mem_names_rename`: which names a reconciled batch has;
* `fillSlots_eq_error`: the slots are filled unless somebody supplies nothing, and then the first
  such slot is named.

`merge_outcome` puts them together: it says for each pair of lists whether the merge succeeds, and
otherwise which fault it ends with.
-/

namespace ContractConversion
namespace Repair

/-! ## Matching by normal form -/

/-- Each unknown name has exactly one missing name of its normal form, and no two of them share
one. -/
def Matched (unknown missing : List String) : Prop :=
  (∀ u ∈ unknown, ∃ m ∈ missing, normalForm m = normalForm u ∧
    ∀ n ∈ missing, normalForm n = normalForm u → n = m) ∧
  ∀ u ∈ unknown, ∀ v ∈ unknown, ∀ m ∈ missing,
    normalForm m = normalForm u → normalForm m = normalForm v → u = v

instance (unknown missing : List String) : Decidable (Matched unknown missing) :=
  inferInstanceAs (Decidable (_ ∧ _))

section Matching

variable {missing claimed unknown targets : List String} {name only : String}

/-- Among distinct names, exactly one has the normal form of a name. -/
lemma filter_eq_singleton_iff (hmissing : missing.Nodup) :
    missing.filter (normalForm · = normalForm name) = [only] ↔
      only ∈ missing ∧ normalForm only = normalForm name ∧
        ∀ n ∈ missing, normalForm n = normalForm name → n = only := by
  rw [← List.perm_singleton,
    List.perm_ext_iff_of_nodup (hmissing.filter _) (List.nodup_singleton _)]
  simp only [List.mem_filter, decide_eq_true_eq, List.mem_singleton]
  constructor
  · intro h
    obtain ⟨hmem, hform⟩ := (h only).mpr rfl
    exact ⟨hmem, hform, fun n hn hnform => (h n).mp ⟨hn, hnform⟩⟩
  · rintro ⟨hmem, hform, hunique⟩ n
    refine ⟨fun hn => hunique n hn.1 hn.2, ?_⟩
    rintro rfl
    exact ⟨hmem, hform⟩

/-- One more name is matched if it has exactly one missing name and no other name has that. -/
lemma matched_cons (hname : name ∉ unknown) :
    Matched (name :: unknown) missing ↔ Matched unknown missing ∧
      ∃ only ∈ missing, normalForm only = normalForm name ∧
        (∀ n ∈ missing, normalForm n = normalForm name → n = only) ∧
        ∀ u ∈ unknown, normalForm only ≠ normalForm u := by
  constructor
  · rintro ⟨hunique, hapart⟩
    obtain ⟨only, hmem, hform, honly⟩ := hunique name List.mem_cons_self
    have hrest : Matched unknown missing :=
      ⟨fun u hu => hunique u (List.mem_cons_of_mem _ hu), fun u hu v hv =>
        hapart u (List.mem_cons_of_mem _ hu) v (List.mem_cons_of_mem _ hv)⟩
    refine ⟨hrest, only, hmem, hform, honly, fun u hu hshared => hname ?_⟩
    have hsame : name = u :=
      hapart name List.mem_cons_self u (List.mem_cons_of_mem _ hu) only hmem hform hshared
    exact hsame ▸ hu
  · rintro ⟨⟨hunique, hapart⟩, only, hmem, hform, honly, hother⟩
    -- what has the normal form of the head is the one name that nobody else has
    have hhead : ∀ m ∈ missing, normalForm m = normalForm name →
        ∀ u ∈ unknown, normalForm m ≠ normalForm u := by
      intro m hm hmname u hu
      rw [honly m hm hmname]
      exact hother u hu
    refine ⟨fun u hu => ?_, fun u hu v hv m hm hmu hmv => ?_⟩
    · rcases List.mem_cons.mp hu with rfl | hu
      · exact ⟨only, hmem, hform, honly⟩
      · exact hunique u hu
    · rcases List.mem_cons.mp hu with hu | hu <;> rcases List.mem_cons.mp hv with hv | hv
      · rw [hu, hv]
      · exact absurd hmv (hhead m hm (hu ▸ hmu) v hv)
      · exact absurd hmu (hhead m hm (hv ▸ hmv) u hu)
      · exact hapart u hu v hv m hm hmu hmv

/-- The unknown names find missing names exactly if they are matched and nothing they are matched
with is claimed. -/
lemma exists_matchNames (hmissing : missing.Nodup) (hunknown : unknown.Nodup) :
    (∃ targets, matchNames missing claimed unknown = some targets) ↔
      Matched unknown missing ∧
        ∀ u ∈ unknown, ∀ m ∈ missing, normalForm m = normalForm u → m ∉ claimed := by
  -- what the head is matched with is claimed for the rest
  induction unknown generalizing claimed with
  | nil => simp [matchNames, Matched]
  | cons name rest ih =>
    obtain ⟨hname, hrest⟩ := List.nodup_cons.mp hunknown
    rw [matchNames, matched_cons hname]
    constructor
    · rintro ⟨targets, h⟩
      split at h
      · next only honly =>
        obtain ⟨hmem, hform, hunique⟩ := (filter_eq_singleton_iff hmissing).mp honly
        split at h
        · exact absurd h (by simp)
        · next hclaimed =>
          obtain ⟨others, hothers, -⟩ := Option.map_eq_some_iff.mp h
          obtain ⟨hmatched, hfree⟩ := (ih hrest).mp ⟨others, hothers⟩
          refine ⟨⟨hmatched, only, hmem, hform, hunique, fun u hu hshared => ?_⟩, ?_⟩
          · exact hfree u hu only hmem hshared List.mem_cons_self
          · intro u hu m hm hmu
            rcases List.mem_cons.mp hu with rfl | hu
            · rwa [hunique m hm hmu]
            · exact fun hc => hfree u hu m hm hmu (List.mem_cons_of_mem _ hc)
      · exact absurd h (by simp)
    · rintro ⟨⟨hmatched, only, hmem, hform, hunique, hother⟩, hfree⟩
      have hfree_rest : ∀ u ∈ rest, ∀ m ∈ missing, normalForm m = normalForm u →
          m ∉ only :: claimed := by
        intro u hu m hm hmu hc
        rcases List.mem_cons.mp hc with rfl | hc
        · exact hother u hu hmu
        · exact hfree u (List.mem_cons_of_mem _ hu) m hm hmu hc
      obtain ⟨others, hothers⟩ := (ih hrest).mpr ⟨hmatched, hfree_rest⟩
      rw [(filter_eq_singleton_iff hmissing).mpr ⟨hmem, hform, hunique⟩]
      dsimp only
      rw [if_neg (hfree name List.mem_cons_self only hmem hform), hothers]
      exact ⟨only :: others, rfl⟩

/-- The missing names that are used up are those of the normal form of an unknown name. -/
lemma mem_targets_iff (hmissing : missing.Nodup)
    (h : matchNames missing claimed unknown = some targets) {m : String} (hm : m ∈ missing) :
    m ∈ targets ↔ ∃ u ∈ unknown, normalForm m = normalForm u := by
  induction unknown generalizing claimed targets with
  | nil =>
    obtain rfl : [] = targets := by simpa [matchNames] using h
    simp
  | cons name rest ih =>
    rw [matchNames] at h
    split at h
    · next only honly =>
      obtain ⟨-, hform, hunique⟩ := (filter_eq_singleton_iff hmissing).mp honly
      split at h
      · exact absurd h (by simp)
      · obtain ⟨others, hothers, rfl⟩ := Option.map_eq_some_iff.mp h
        have hhead : m = only ↔ normalForm m = normalForm name :=
          ⟨fun heq => heq ▸ hform, hunique m hm⟩
        rw [List.mem_cons, ih hothers, hhead]
        simp
    · exact absurd h (by simp)

/-- Names that are matched are not more than the missing ones. -/
lemma Matched.length_le (h : Matched unknown missing) (hmissing : missing.Nodup)
    (hunknown : unknown.Nodup) : unknown.length ≤ missing.length := by
  obtain ⟨targets, htargets⟩ : ∃ targets, matchNames missing [] unknown = some targets :=
    (exists_matchNames hmissing hunknown).mpr ⟨h, by simp⟩
  obtain ⟨hlen, hnodup, hmem⟩ := matchNames_some htargets
  rw [← hlen]
  exact (List.subperm_of_subset hnodup fun t ht => (hmem t ht).1).length_le

/-- A lone unknown name takes a lone missing name; in all other cases names go by normal form. -/
lemma targets?_eq_matchNames (h : ¬ (unknown.length = 1 ∧ missing.length = 1)) :
    targets? unknown missing = matchNames missing [] unknown := by
  rw [targets?.eq_def]
  split
  · exact absurd ⟨rfl, rfl⟩ h
  · rfl

end Matching

/-! ## The names of a reconciled batch -/

/-- Renamed, a batch has the names of the order that it had before, and the targets. -/
lemma mem_names_rename {order targets : List String} {batch : List Artifact}
    (hnodup : (names batch).Nodup) (hlen : targets.length = (unknownNames batch order).length)
    {n : String} (hn : n ∈ order) :
    n ∈ names (rename order targets batch) ↔ n ∈ names batch ∨ n ∈ targets := by
  obtain ⟨ρ, hmap, hid, htargets⟩ := rename_eq_map hnodup hlen
  rw [hmap, names_map_relabel, ← htargets, List.mem_map, List.mem_map]
  constructor
  · rintro ⟨k, hk, rfl⟩
    by_cases horder : k ∈ order
    · rw [hid k horder]
      exact Or.inl hk
    · exact Or.inr ⟨k, mem_unknownNames.mpr ⟨hk, horder⟩, rfl⟩
  · rintro (hmem | ⟨k, hk, rfl⟩)
    · exact ⟨n, hmem, hid n hn⟩
    · exact ⟨k, (mem_unknownNames.mp hk).1, rfl⟩

/-! ## Filling the slots -/

/-- Filling fails exactly if some slot has no supplier, at the first such slot. -/
lemma fillSlots_eq_error {accepted fixes : List Artifact} {position : ℕ} {order : List String}
    (hnodup : order.Nodup) {fault : MergeFault} :
    fillSlots accepted fixes position order = .error fault ↔
      ∃ n, order.find? (fun n => (supplier? accepted fixes n).isNone) = some n ∧
        fault = .missing n := by
  -- a fix that is used leaves the fixes, so the induction is for all of them
  induction order generalizing fixes position with
  | nil => simp [fillSlots]
  | cons head rest ih =>
    obtain ⟨hhead, hrest⟩ := List.nodup_cons.mp hnodup
    rw [fillSlots, ← supplier?]
    cases ha : supplier? accepted fixes head with
    | none =>
      rw [List.find?_cons_of_pos (by simp [ha])]
      simp [eq_comm]
    | some a =>
      have hsame : ∀ n ∈ rest, (supplier? accepted (fixes.filter (·.name ≠ head)) n).isNone =
          (supplier? accepted fixes n).isNone := by
        intro n hn
        have hne : n ≠ head := fun h => hhead (h ▸ hn)
        rw [supplier?, lastNamed?_filter_ne hne, ← supplier?]
      rw [List.find?_cons_of_neg (by simp [ha]), ← List.find?_congr hsame, ← ih hrest]
      dsimp only
      rw [bind_eq_error]
      refine or_iff_left ?_
      rintro ⟨others, -, hpure⟩
      exact absurd hpure (by simp [pure, Except.pure])

/-! ## Merging -/

/-- The lists of names on which a merge succeeds. -/
def Settled (unknown missing : List String) : Prop :=
  (unknown = [] ∧ missing = []) ∨ (unknown.length = 1 ∧ missing.length = 1) ∨
    (2 ≤ unknown.length ∧ unknown.length = missing.length ∧ Matched unknown missing)

instance (unknown missing : List String) : Decidable (Settled unknown missing) :=
  inferInstanceAs (Decidable (_ ∨ _ ∨ _))

/-- The lists of names on which slots stay empty. -/
def FallsShort (unknown missing : List String) : Prop :=
  (unknown = [] ∧ missing ≠ []) ∨ (Matched unknown missing ∧ unknown.length < missing.length)

instance (unknown missing : List String) : Decidable (FallsShort unknown missing) :=
  inferInstanceAs (Decidable (_ ∨ _))

section Verdict

variable {unknown missing targets : List String}

lemma matched_nil (missing : List String) : Matched [] missing := by
  constructor <;> simp

/-- Matched names that are no pair settle the matter if they are as many as the missing ones. -/
lemma Matched.settled_iff (h : Matched unknown missing) (hmissing : missing.Nodup)
    (hunknown : unknown.Nodup) (hpair : ¬ (unknown.length = 1 ∧ missing.length = 1)) :
    Settled unknown missing ↔ missing.length ≤ unknown.length := by
  have hle : unknown.length ≤ missing.length := h.length_le hmissing hunknown
  constructor
  · rintro (⟨-, rfl⟩ | hlone | ⟨-, hsame, -⟩)
    · exact Nat.zero_le _
    · exact absurd hlone hpair
    · exact hsame.ge
  · intro hge
    have hsame : unknown.length = missing.length := le_antisymm hle hge
    cases unknown with
    | nil => exact Or.inl ⟨rfl, List.length_eq_zero_iff.mp hsame.symm⟩
    | cons first rest =>
      refine Or.inr (Or.inr ⟨?_, hsame, h⟩)
      by_contra hlt
      rw [List.length_cons] at hlt hsame hpair
      omega

/-- Matched names fall short if they are fewer than the missing ones. -/
lemma Matched.fallsShort_iff (h : Matched unknown missing) :
    FallsShort unknown missing ↔ unknown.length < missing.length := by
  constructor
  · rintro (⟨rfl, hne⟩ | ⟨-, hlt⟩)
    · exact List.length_pos_of_ne_nil hne
    · exact hlt
  · exact fun hlt => Or.inr ⟨h, hlt⟩

/-- Names that are not matched settle nothing, unless they are a pair. -/
lemma not_settled_of_not_matched (h : ¬ Matched unknown missing)
    (hpair : ¬ (unknown.length = 1 ∧ missing.length = 1)) : ¬ Settled unknown missing := by
  rintro (⟨rfl, -⟩ | hlone | ⟨-, -, hmatched⟩)
  · exact h (matched_nil missing)
  · exact hpair hlone
  · exact h hmatched

/-- A pair does not fall short. -/
lemma not_fallsShort_of_pair (hpair : unknown.length = 1 ∧ missing.length = 1) :
    ¬ FallsShort unknown missing := by
  rintro (⟨rfl, -⟩ | ⟨-, hlt⟩)
  · exact absurd hpair.1 (by simp)
  · omega

/-- Distinct targets among the missing names are all of them if they are as many. -/
lemma targets_cover_iff (hmissing : missing.Nodup) (htargets : targets.Nodup)
    (hsub : ∀ t ∈ targets, t ∈ missing) :
    (∀ n ∈ missing, n ∈ targets) ↔ missing.length ≤ targets.length := by
  constructor
  · exact fun h => (List.subperm_of_subset hmissing h).length_le
  · intro hle n hn
    have hperm := (List.subperm_of_subset htargets hsub).perm_of_length_le hle
    exact hperm.mem_iff.mpr hn

end Verdict

/-- If an unknown name has somewhere to go, all depends on the targets. -/
lemma reconcile_eq {batch : List Artifact} {accepted order : List String}
    (h : unknownNames batch order = [] ∨ missingNames batch accepted order ≠ []) :
    reconcile batch accepted order =
      match targets? (unknownNames batch order) (missingNames batch accepted order) with
      | some targets => .ok (rename order targets batch)
      | none => .error (.ambiguous (unknownNames batch order)
          (missingNames batch accepted order)) := by
  rw [reconcile]
  cases hunknown : unknownNames batch order with
  | nil =>
    rw [targets?_eq_matchNames (by simp), matchNames]
    simp only [rename_nil]
  | cons first rest =>
    have hmissing : missingNames batch accepted order ≠ [] :=
      h.resolve_left (by simp [hunknown])
    refine (if_neg hmissing).trans ?_
    cases targets? (first :: rest) (missingNames batch accepted order) <;> rfl

/-- The end of a merge, by the names that are unknown and those that are missing. -/
structure Ends (order unknown missing : List String) (result : Except MergeFault (List Artifact)) :
    Prop where
  succeeds : (∃ merged, result = .ok merged) ↔ Settled unknown missing
  /-- The first unknown name is at fault if there is no slot for it. -/
  unexpected : ∀ first rest, unknown = first :: rest → missing = [] →
    result = .error (.unexpected first)
  /-- The first slot of the order that stays empty is at fault. -/
  short : FallsShort unknown missing → ∃ n,
    order.find? (fun n => n ∈ missing ∧ ∀ u ∈ unknown, normalForm n ≠ normalForm u) = some n ∧
      result = .error (.missing n)
  /-- In all other cases the names cannot be told apart. -/
  ambiguous : ¬ Settled unknown missing → ¬ (unknown ≠ [] ∧ missing = []) →
    ¬ FallsShort unknown missing → result = .error (.ambiguous unknown missing)

/-- The names that decide a merge: those of the batch, the first fix of each name alone, that the
order does not know, and those of the order that are neither accepted nor in the batch. -/
structure Decisive (accepted batch : List Artifact) (order unknown missing : List String) :
    Prop where
  nodup : order.Nodup
  unknown_eq : unknownNames (firstOfEach [] batch) order = unknown
  missing_eq : missingNames (firstOfEach [] batch) (names accepted) order = missing

namespace Decisive

variable {accepted batch : List Artifact} {order unknown missing targets : List String}

lemma nodup_unknown (h : Decisive accepted batch order unknown missing) : unknown.Nodup :=
  h.unknown_eq ▸ (nodup_names_firstOfEach [] batch).filter _

lemma nodup_missing (h : Decisive accepted batch order unknown missing) : missing.Nodup :=
  h.missing_eq ▸ h.nodup.filter _

/-- Once the targets are known, the missing names that are no targets decide: the slot of the first
one stays empty. -/
lemma merge_eq_error (h : Decisive accepted batch order unknown missing)
    (hopen : unknown = [] ∨ missing ≠ []) (htargets : targets? unknown missing = some targets)
    {fault : MergeFault} :
    merge accepted batch order = .error fault ↔
      ∃ n, order.find? (fun n => n ∈ missing ∧ n ∉ targets) = some n ∧ fault = .missing n := by
  obtain ⟨hnodup, rfl, rfl⟩ := h
  have hmerge : merge accepted batch order =
      fillSlots accepted (rename order targets (firstOfEach [] batch)) 0 order := by
    rw [merge, reconcile_eq hopen, htargets]
    rfl
  have hempty : ∀ n ∈ order,
      (supplier? accepted (rename order targets (firstOfEach [] batch)) n).isNone =
        decide (n ∈ missingNames (firstOfEach [] batch) (names accepted) order ∧
          n ∉ targets) := by
    intro n hn
    have hrename := mem_names_rename (nodup_names_firstOfEach [] batch)
      (targets?_some htargets).1 hn
    rw [Bool.eq_iff_iff, Option.isNone_iff_eq_none, decide_eq_true_iff, supplier?,
      Option.or_eq_none_iff, lastNamed?_eq_none, lastNamed?_eq_none, hrename, mem_missingNames]
    tauto
  rw [hmerge, fillSlots_eq_error hnodup, List.find?_congr hempty]

/-- The merge succeeds if every missing name is a target. -/
lemma exists_merge_iff (h : Decisive accepted batch order unknown missing)
    (hopen : unknown = [] ∨ missing ≠ []) (htargets : targets? unknown missing = some targets) :
    (∃ merged, merge accepted batch order = .ok merged) ↔ ∀ n ∈ missing, n ∈ targets := by
  constructor
  · rintro ⟨merged, hok⟩ n hn
    by_contra hnot
    have hin : n ∈ order := (mem_missingNames.mp (h.missing_eq ▸ hn)).1
    have hsome : (order.find? (fun n => n ∈ missing ∧ n ∉ targets)).isSome := by
      rw [List.find?_isSome]
      exact ⟨n, hin, by simp [hn, hnot]⟩
    obtain ⟨first, hfirst⟩ := Option.isSome_iff_exists.mp hsome
    have herror := (h.merge_eq_error hopen htargets).mpr ⟨first, hfirst, rfl⟩
    rw [hok] at herror
    exact absurd herror (by simp)
  · intro hall
    cases hmerge : merge accepted batch order with
    | ok merged => exact ⟨merged, rfl⟩
    | error fault =>
      obtain ⟨n, hfind, -⟩ := (h.merge_eq_error hopen htargets).mp hmerge
      have hn := List.find?_some hfind
      rw [decide_eq_true_iff] at hn
      exact absurd (hall n hn.1) hn.2

/-- Elimination: the one missing name is the target of the one unknown name. -/
lemma ends_of_pair (h : Decisive accepted batch order unknown missing)
    (hpair : unknown.length = 1 ∧ missing.length = 1) :
    Ends order unknown missing (merge accepted batch order) := by
  obtain ⟨⟨first, rfl⟩, only, rfl⟩ :=
    hpair.imp List.length_eq_one_iff.mp List.length_eq_one_iff.mp
  have hok : ∃ merged, merge accepted batch order = .ok merged :=
    (h.exists_merge_iff (Or.inr (by simp)) rfl).mpr fun n hn => hn
  have hsettled : Settled [first] [only] := Or.inr (Or.inl hpair)
  exact {
    succeeds := iff_of_true hok hsettled
    unexpected := fun _ _ _ hnil => absurd hnil (by simp)
    short := fun hshort => absurd hshort (not_fallsShort_of_pair hpair)
    ambiguous := fun hnot => absurd hsettled hnot }

/-- Names that are matched: the missing names that are left over decide. -/
lemma ends_of_matched (h : Decisive accepted batch order unknown missing)
    (hopen : unknown = [] ∨ missing ≠ []) (hpair : ¬ (unknown.length = 1 ∧ missing.length = 1))
    (hmatched : Matched unknown missing) :
    Ends order unknown missing (merge accepted batch order) := by
  obtain ⟨targets, hmatch⟩ : ∃ targets, matchNames missing [] unknown = some targets :=
    (exists_matchNames h.nodup_missing h.nodup_unknown).mpr ⟨hmatched, by simp⟩
  have htargets : targets? unknown missing = some targets :=
    (targets?_eq_matchNames hpair).trans hmatch
  obtain ⟨hlen, hnodup, hsub⟩ := targets?_some htargets
  have hsettled := hmatched.settled_iff h.nodup_missing h.nodup_unknown hpair
  have hok : (∃ merged, merge accepted batch order = .ok merged) ↔ Settled unknown missing := by
    rw [h.exists_merge_iff hopen htargets, targets_cover_iff h.nodup_missing hnodup hsub, hlen,
      hsettled]
  refine ⟨hok, fun first rest hcons hnil => ?_, fun hshort => ?_, fun hnot _ hlong => ?_⟩
  · exact absurd hnil (hopen.resolve_left (by simp [hcons]))
  · -- a merge that does not succeed names the first slot without a target
    have hlt := hmatched.fallsShort_iff.mp hshort
    have hempty : ∀ n ∈ order, decide (n ∈ missing ∧ n ∉ targets) =
        decide (n ∈ missing ∧ ∀ u ∈ unknown, normalForm n ≠ normalForm u) := by
      intro n _
      refine decide_eq_decide.mpr (and_congr_right fun hn => ?_)
      rw [mem_targets_iff h.nodup_missing hmatch hn]
      simp
    rw [← List.find?_congr hempty]
    cases hmerge : merge accepted batch order with
    | ok merged => exact absurd (hsettled.mp (hok.mp ⟨merged, hmerge⟩)) (by omega)
    | error fault =>
      obtain ⟨n, hfind, rfl⟩ := (h.merge_eq_error hopen htargets).mp hmerge
      exact ⟨n, hfind, rfl⟩
  · rw [hsettled] at hnot
    rw [hmatched.fallsShort_iff] at hlong
    omega

/-- Names that are neither matched nor a pair cannot be told apart. -/
lemma ends_of_not_matched (h : Decisive accepted batch order unknown missing)
    (hopen : unknown = [] ∨ missing ≠ []) (hpair : ¬ (unknown.length = 1 ∧ missing.length = 1))
    (hmatched : ¬ Matched unknown missing) :
    Ends order unknown missing (merge accepted batch order) := by
  have htargets : targets? unknown missing = none := by
    rw [targets?_eq_matchNames hpair, Option.eq_none_iff_forall_ne_some]
    intro targets hmatch
    exact hmatched
      ((exists_matchNames h.nodup_missing h.nodup_unknown).mp ⟨targets, hmatch⟩).1
  have herror : merge accepted batch order = .error (.ambiguous unknown missing) := by
    obtain ⟨-, rfl, rfl⟩ := h
    rw [merge, reconcile_eq hopen, htargets]
    rfl
  refine ⟨iff_of_false ?_ (not_settled_of_not_matched hmatched hpair), fun _ _ hcons hnil => ?_, ?_,
    fun _ _ _ => herror⟩
  · rintro ⟨merged, hok⟩
    exact absurd (hok.symm.trans herror) (by simp)
  · exact absurd hnil (hopen.resolve_left (by simp [hcons]))
  · rintro (⟨rfl, -⟩ | ⟨hmatched', -⟩)
    · exact absurd (matched_nil missing) hmatched
    · exact absurd hmatched' hmatched

/-- Unknown names without any slot for them. -/
lemma ends_of_no_missing {first : String} {rest : List String}
    (h : Decisive accepted batch order (first :: rest) []) :
    Ends order (first :: rest) [] (merge accepted batch order) := by
  have herror : merge accepted batch order = .error (.unexpected first) := by
    rw [merge, reconcile, h.unknown_eq, h.missing_eq]
    rfl
  refine ⟨iff_of_false ?_ ?_, fun f r hcons _ => ?_, ?_, fun _ hnot _ => ?_⟩
  · rintro ⟨merged, hok⟩
    exact absurd (hok.symm.trans herror) (by simp)
  · rintro (⟨hnil, -⟩ | ⟨-, hlone⟩ | ⟨-, hsame, -⟩)
    · exact absurd hnil (by simp)
    · exact absurd hlone (by simp)
    · exact absurd hsame (by simp)
  · obtain ⟨rfl, -⟩ := List.cons.inj hcons
    exact herror
  · rintro (⟨hnil, -⟩ | ⟨-, hlt⟩)
    · exact absurd hnil (by simp)
    · exact absurd hlt (by simp)
  · exact absurd ⟨by simp, rfl⟩ hnot

end Decisive

/-- **How a merge ends.** Two lists of names decide it: the names of the batch, the first fix of
each name alone, that the order does not know; and the names of the order that are neither accepted
nor in the batch. The merge succeeds exactly if both are empty, or each has one name, or they are as
many and matched one to one by their normal forms. Otherwise the first unknown name is unexpected if
nothing is missing; the first slot that nobody fills is missing if there is no unknown name, or if
the unknown names are matched and too few; and in all other cases the names cannot be told apart. -/
theorem merge_outcome (accepted batch : List Artifact) {order : List String}
    (horder : order.Nodup) :
    let fixes := firstOfEach [] batch
    Ends order (unknownNames fixes order) (missingNames fixes (names accepted) order)
      (merge accepted batch order) := by
  intro fixes
  have h : Decisive accepted batch order (unknownNames fixes order)
      (missingNames fixes (names accepted) order) := ⟨horder, rfl, rfl⟩
  generalize unknownNames fixes order = unknown at h ⊢
  generalize missingNames fixes (names accepted) order = missing at h ⊢
  by_cases hopen : unknown = [] ∨ missing ≠ []
  · by_cases hpair : unknown.length = 1 ∧ missing.length = 1
    · exact h.ends_of_pair hpair
    · by_cases hmatched : Matched unknown missing
      · exact h.ends_of_matched hopen hpair hmatched
      · exact h.ends_of_not_matched hopen hpair hmatched
  · obtain ⟨hne, hnil⟩ := not_or.mp hopen
    obtain ⟨first, rest, rfl⟩ := List.exists_cons_of_ne_nil hne
    obtain rfl := not_not.mp hnil
    exact h.ends_of_no_missing

/-- Two renamed fixes are matched and one slot stays empty; with a third fix, whose normal form is
that of another one, none can be told apart. -/
theorem merge_outcome_short :
    let accepted : List Artifact := [{ name := "Vault", code := "v", validated := true }]
    let batch : List Artifact :=
      [{ name := "price-oracle", code := "o" }, { name := "Vault", code := "w" },
        { name := "token_sale", code := "t" }]
    let order := ["Vault", "TokenSale", "Registry", "PriceOracle"]
    order.Nodup ∧ merge accepted batch order = .error (.missing "Registry") ∧
      merge accepted (batch ++ [{ name := "PRICE ORACLE", code := "p" }]) order =
        .error (.ambiguous ["price-oracle", "token_sale", "PRICE ORACLE"]
          ["TokenSale", "Registry", "PriceOracle"]) := by
  intro accepted batch order
  have horder : order.Nodup := by decide
  obtain ⟨n, hfind, herror⟩ := (merge_outcome accepted batch horder).short (by decide)
  obtain rfl : "Registry" = n := Option.some.inj hfind
  exact ⟨horder, herror, (merge_outcome accepted _ horder).ambiguous (by decide) (by decide)
    (by decide)⟩

end Repair
end ContractConversion
