import ContractConversion.Proofs.Editing
import ContractConversion.Proofs.Repair.Outcome
import Mathlib.Data.List.Forall2

/-!
# Reconciling a batch where it stands

`reconcileInPlace` goes through a batch by place: it looks up the places of the unknown names, finds
a missing name for each of them, and only then writes the new names into the batch. It may break off
at any place before that, and it carries out `reconcile` (`reconcileInPlace_carriesOut`): a name is
written only when all are found, and each to the place it was found for.

What becomes of the artifacts is said place by place (`Reconciled`), for every batch, whether or not
its names are distinct. `reconcileInPlace_atomic` puts both together.
-/

namespace ContractConversion
namespace Repair

/-! ## The procedure -/

/-- The places of the artifacts whose names the order does not know. -/
def unknownPlaces (batch : List Artifact) (order : List String) : List ℕ :=
  batch.findIdxs fun a => a.name ∉ order

/-- Reads the name at a place. -/
def nameAt (place : ℕ) : Editing MergeFault (List Artifact) String := do
  let batch ← get
  return (names batch).getD place ""

/-- Gives the artifact at a place a name. -/
def renameAt (place : ℕ) (name : String) : Editing MergeFault (List Artifact) Unit :=
  modify fun batch => batch.modify place fun a => { a with name }

/-- Finds for each place the one missing name of the normal form of its name. Breaks off where there
is not exactly one, or where it is claimed already. -/
def assign (fault : MergeFault) (missing : List String) :
    List String → List ℕ → Editing MergeFault (List Artifact) (List (ℕ × String))
  | _, [] => return []
  | claimed, place :: rest => do
    let name ← nameAt place
    match missing.filter (normalForm · = normalForm name) with
    | [only] =>
      if only ∈ claimed then throw fault
      else
        let found ← assign fault missing (only :: claimed) rest
        return (place, only) :: found
    | _ => throw fault

/-- Gives the renamed fixes of a batch the names that they stand for, where they stand. -/
def reconcileInPlace (accepted order : List String) :
    Editing MergeFault (List Artifact) Unit := do
  let batch ← get
  let missing := missingNames batch accepted order
  match unknownPlaces batch order, missing with
  | [], _ => return
  | place :: _, [] =>
    let name ← nameAt place
    throw (.unexpected name)
  | [place], [only] => renameAt place only
  | places, missing =>
    let found ← assign (.ambiguous (unknownNames batch order) missing) missing [] places
    found.forM fun (place, name) => renameAt place name

/-! ## The places of a batch -/

section Places

variable {order : List String} {batch : List Artifact}

/-- The names at the unknown places of the rest of a batch are its unknown names. -/
lemma map_unknownPlaces (order : List String) (front batch : List Artifact) :
    (batch.findIdxs (fun a => a.name ∉ order) front.length).map
        (fun place => (names (front ++ batch)).getD place "") = unknownNames batch order := by
  induction batch generalizing front with
  | nil => simp [unknownNames]
  | cons a rest ih =>
    have hrest := ih (front ++ [a])
    rw [List.length_append, List.length_singleton, List.append_assoc, List.singleton_append]
      at hrest
    rw [List.findIdxs_cons]
    by_cases ha : a.name ∈ order
    · rw [if_neg (by simpa using ha), hrest, unknownNames_cons_of_mem ha]
    · have hname : (names (front ++ a :: rest)).getD front.length "" = a.name := by
        simp [names]
      rw [if_pos (by simpa using ha), List.map_cons, hname, hrest, unknownNames_cons_of_notMem ha]

/-- Writing a target to each unknown place of the rest of a batch is renaming the rest. -/
lemma foldl_modify_unknownPlaces (front batch : List Artifact) {targets : List String}
    (hlen : targets.length = (unknownNames batch order).length) :
    ((batch.findIdxs (fun a => a.name ∉ order) front.length).zip targets).foldl
        (fun batch found => batch.modify found.1 fun a => { a with name := found.2 })
        (front ++ batch) = front ++ rename order targets batch := by
  induction batch generalizing front targets with
  | nil => simp [rename]
  | cons a rest ih =>
    rw [List.findIdxs_cons]
    by_cases ha : a.name ∈ order
    · rw [unknownNames_cons_of_mem ha] at hlen
      have hrest := ih (front ++ [a]) hlen
      rw [List.length_append, List.length_singleton, List.append_assoc, List.singleton_append,
        List.append_assoc, List.singleton_append] at hrest
      rw [if_neg (by simpa using ha), hrest, rename_cons_of_mem ha]
    · rw [unknownNames_cons_of_notMem ha] at hlen
      cases targets with
      | nil => simp at hlen
      | cons t ts =>
        have hwrite : (front ++ a :: rest).modify front.length
            (fun a => { a with name := t }) = front ++ { a with name := t } :: rest := by
          rw [List.modify_eq_take_cons_drop (by simp)]
          simp
        have hrest := ih (front ++ [{ a with name := t }]) (Nat.succ.inj hlen)
        rw [List.length_append, List.length_singleton, List.append_assoc, List.singleton_append,
          List.append_assoc, List.singleton_append] at hrest
        rw [if_pos (by simpa using ha), List.zip_cons_cons, List.foldl_cons, hwrite, hrest,
          rename_cons_of_notMem ha]

/-- The names at the unknown places are the unknown names. -/
lemma names_unknownPlaces (batch : List Artifact) (order : List String) :
    (unknownPlaces batch order).map (fun place => (names batch).getD place "") =
      unknownNames batch order :=
  map_unknownPlaces order [] batch

/-- Writing a target to each unknown place is renaming the batch. -/
lemma foldl_modify_eq_rename {targets : List String}
    (hlen : targets.length = (unknownNames batch order).length) :
    ((unknownPlaces batch order).zip targets).foldl
        (fun batch found => batch.modify found.1 fun a => { a with name := found.2 }) batch =
      rename order targets batch :=
  foldl_modify_unknownPlaces [] batch hlen

end Places

/-! ## The procedure carries out the reconciliation -/

section Performing

open Editing

@[simp] lemma perform_nameAt (place : ℕ) (batch : List Artifact) :
    perform (nameAt place) batch = (.ok ((names batch).getD place ""), batch) := rfl

@[simp] lemma perform_renameAt (place : ℕ) (name : String) (batch : List Artifact) :
    perform (renameAt place name) batch =
      (.ok (), batch.modify place fun a => { a with name }) := rfl

/-- The search finds what the names at the places match, and leaves the batch alone. -/
lemma perform_assign (fault : MergeFault) (missing claimed : List String) (places : List ℕ)
    (batch : List Artifact) :
    perform (assign fault missing claimed places) batch =
      (match matchNames missing claimed
          (places.map fun place => (names batch).getD place "") with
        | some targets => .ok (places.zip targets)
        | none => .error fault, batch) := by
  induction places generalizing claimed with
  | nil => rfl
  | cons place rest ih =>
    rw [assign, List.map_cons, matchNames, perform_bind, perform_nameAt]
    dsimp only
    -- the search goes on only behind exactly one name that is not claimed
    rcases missing.filter (normalForm · = normalForm ((names batch).getD place "")) with
      _ | ⟨only, _ | ⟨second, others⟩⟩
    · rfl
    · dsimp only
      by_cases hclaimed : only ∈ claimed
      · rw [if_pos hclaimed, if_pos hclaimed, perform_throw]
      · rw [if_neg hclaimed, if_neg hclaimed, perform_bind, ih]
        cases matchNames missing (only :: claimed)
          (rest.map fun place => (names batch).getD place "") <;> rfl
    · rfl

/-- All that is found is written. -/
lemma perform_forM_renameAt (found : List (ℕ × String)) (batch : List Artifact) :
    perform (found.forM fun (place, name) => renameAt place name) batch =
      (.ok (), found.foldl (fun batch found => batch.modify found.1 fun a =>
        { a with name := found.2 }) batch) := by
  induction found generalizing batch with
  | nil => rfl
  | cons first rest ih =>
    rw [List.forM, perform_bind, perform_renameAt]
    exact ih _

/-- Nothing is written before all is found, and then each name where it was found for. -/
lemma perform_search {batch : List Artifact} {order : List String} (fault : MergeFault)
    (missing : List String) :
    perform (do
        let found ← assign fault missing [] (unknownPlaces batch order)
        found.forM fun (place, name) => renameAt place name) batch =
      match matchNames missing [] (unknownNames batch order) with
      | some targets => (.ok (), rename order targets batch)
      | none => (.error fault, batch) := by
  rw [perform_bind, perform_assign, names_unknownPlaces]
  cases htargets : matchNames missing [] (unknownNames batch order) with
  | none => rfl
  | some targets =>
    obtain ⟨hlen, -⟩ := matchNames_some htargets
    dsimp only
    rw [perform_forM_renameAt, foldl_modify_eq_rename hlen]

/-- **Reconciling in place carries out the reconciliation.** -/
theorem reconcileInPlace_carriesOut (batch : List Artifact) (accepted order : List String) :
    CarriesOut (reconcileInPlace accepted order) (reconcile · accepted order) batch := by
  have hnames := names_unknownPlaces batch order
  rw [CarriesOut, reconcileInPlace, perform_bind, perform_get]
  dsimp only
  split
  · -- all names are known
    next hplaces =>
    rw [hplaces, List.map_nil] at hnames
    rw [reconcile, ← hnames]
    rfl
  · -- there is no slot for the first unknown name
    next place places hplaces hmissing =>
    rw [hplaces, List.map_cons] at hnames
    rw [reconcile, ← hnames, hmissing]
    rfl
  · -- a lone unknown name takes the lone slot
    next place only hplaces hmissing =>
    rw [hplaces, List.map_singleton] at hnames
    have hlen : [only].length = (unknownNames batch order).length := by
      rw [← hnames]
      rfl
    have hwrite := foldl_modify_eq_rename hlen
    rw [hplaces] at hwrite
    have hmodify : batch.modify place (fun a => { a with name := only }) =
      rename order [only] batch := hwrite
    rw [reconcile, ← hnames, hmissing, perform_renameAt, hmodify]
    rfl
  · -- otherwise names go by normal form
    next hsome hslot hlone =>
    have hmissing : missingNames batch accepted order ≠ [] := fun hnil => by
      obtain ⟨place, places, hplaces⟩ := List.exists_cons_of_ne_nil hsome
      exact hslot place places hplaces hnil
    have hpair : ¬ ((unknownNames batch order).length = 1 ∧
        (missingNames batch accepted order).length = 1) := by
      rintro ⟨hunknown, hslots⟩
      rw [← hnames, List.length_map] at hunknown
      obtain ⟨place, hplace⟩ := List.length_eq_one_iff.mp hunknown
      obtain ⟨only, honly⟩ := List.length_eq_one_iff.mp hslots
      exact hlone place only hplace honly
    rw [reconcile_eq (Or.inr hmissing), targets?_eq_matchNames hpair]
    refine (perform_search _ _).trans ?_
    cases matchNames (missingNames batch accepted order) [] (unknownNames batch order) <;> rfl

end Performing

/-! ## What becomes of each artifact -/

/-- What reconciling a batch makes of an artifact. All but the name stays as it is. The new name is
one of the order, and it is a new one only where the order does not know the old one; then nothing
of the name is accepted or in the batch. -/
structure Reconciled (batch : List Artifact) (accepted order : List String) (a b : Artifact) :
    Prop where
  others : b = { a with name := b.name }
  mem_order : b.name ∈ order
  renamed : b.name ≠ a.name → a.name ∉ order ∧ b.name ∉ accepted ∧ b.name ∉ names batch

section Entries

variable {batch fixes : List Artifact} {accepted order : List String}

/-- A reconciliation that succeeds renames to targets among the missing names. -/
lemma exists_targets (h : reconcile batch accepted order = .ok fixes) :
    ∃ targets, fixes = rename order targets batch ∧
      targets.length = (unknownNames batch order).length ∧
      ∀ t ∈ targets, t ∈ missingNames batch accepted order := by
  rw [reconcile] at h
  split at h
  · next hunknown =>
    obtain rfl := Except.ok.inj h
    exact ⟨[], (rename_nil order batch).symm, by rw [hunknown], by simp⟩
  · next first rest hunknown =>
    split at h
    · cases h
    · split at h
      · next targets htargets =>
        obtain rfl := Except.ok.inj h
        obtain ⟨hlen, -, hmem⟩ := targets?_some htargets
        exact ⟨targets, rfl, by rw [hunknown, hlen], hmem⟩
      · cases h

/-- Renaming part of a batch to missing names of the whole. -/
lemma forall₂_rename (whole : List Artifact) {targets : List String} {batch : List Artifact}
    (hlen : targets.length = (unknownNames batch order).length)
    (hmem : ∀ t ∈ targets, t ∈ missingNames whole accepted order) :
    List.Forall₂ (Reconciled whole accepted order) batch (rename order targets batch) := by
  induction batch generalizing targets with
  | nil => rw [rename]; exact .nil
  | cons a rest ih =>
    by_cases ha : a.name ∈ order
    · rw [unknownNames_cons_of_mem ha] at hlen
      rw [rename_cons_of_mem ha]
      exact .cons ⟨rfl, ha, fun hne => absurd rfl hne⟩ (ih hlen hmem)
    · rw [unknownNames_cons_of_notMem ha] at hlen
      cases targets with
      | nil => simp at hlen
      | cons t ts =>
        obtain ⟨horder, hnew⟩ := mem_missingNames.mp (hmem t List.mem_cons_self)
        rw [rename_cons_of_notMem ha]
        exact .cons ⟨rfl, horder, fun _ => ⟨ha, hnew⟩⟩
          (ih (Nat.succ.inj hlen) fun s hs => hmem s (List.mem_cons_of_mem _ hs))

/-- **A reconciliation touches names only**, at every place of the batch. -/
lemma forall₂_reconcile (h : reconcile batch accepted order = .ok fixes) :
    List.Forall₂ (Reconciled batch accepted order) batch fixes := by
  obtain ⟨targets, rfl, hlen, hmem⟩ := exists_targets h
  exact forall₂_rename batch hlen hmem

/-- A reconciled batch has names of the order only. -/
lemma mem_order_of_forall₂ {whole : List Artifact}
    (h : List.Forall₂ (Reconciled whole accepted order) batch fixes) :
    ∀ n ∈ names fixes, n ∈ order := by
  induction h with
  | nil => simp
  | cons hab _ ih =>
    rw [names_cons, List.forall_mem_cons]
    exact ⟨hab.mem_order, ih⟩

/-- No two names become one. -/
lemma nodup_of_reconcile (hnodup : (names batch).Nodup)
    (h : reconcile batch accepted order = .ok fixes) : (names fixes).Nodup := by
  obtain ⟨ρ, rfl, hρ⟩ := reconcile_ok hnodup h
  rw [names_map_relabel]
  exact hnodup.map_on hρ.inj

/-- Where all names are known there is nothing to reconcile. -/
lemma reconcile_of_known (h : ∀ n ∈ names batch, n ∈ order) (accepted : List String) :
    reconcile batch accepted order = .ok batch := by
  have hunknown : unknownNames batch order = [] := by
    rw [unknownNames, List.filter_eq_nil_iff]
    simpa using h
  rw [reconcile, hunknown]

end Entries

/-! ## All or nothing -/

/-- **Reconciling is all or nothing and touches names only**, for every batch. If the procedure
breaks off, the batch is as it was. If it ends well, each artifact stands in its place with all but
its name; names change only where the order does not know them, to names of the order that are
neither accepted nor in the batch; all names are then names of the order, distinct ones stay
distinct, and to reconcile once more changes nothing. The outcome is that of `reconcile`. -/
theorem reconcileInPlace_atomic (batch : List Artifact) (accepted order : List String) :
    match Editing.perform (reconcileInPlace accepted order) batch with
    | (.error fault, after) =>
      after = batch ∧ reconcile batch accepted order = .error fault
    | (.ok (), after) =>
      reconcile batch accepted order = .ok after ∧
        List.Forall₂ (Reconciled batch accepted order) batch after ∧
        (∀ n ∈ names after, n ∈ order) ∧
        ((names batch).Nodup → (names after).Nodup) ∧
        Editing.perform (reconcileInPlace accepted order) after = (.ok (), after) := by
  have hperform := reconcileInPlace_carriesOut batch accepted order
  cases h : reconcile batch accepted order with
  | error fault =>
    rw [hperform.of_error h]
    exact ⟨rfl, rfl⟩
  | ok after =>
    rw [hperform.of_ok h]
    have hentries := forall₂_reconcile h
    have hknown : ∀ n ∈ names after, n ∈ order := mem_order_of_forall₂ hentries
    have hagain := reconcileInPlace_carriesOut after accepted order
    exact ⟨rfl, hentries, hknown, fun hnodup => nodup_of_reconcile hnodup h,
      hagain.of_ok (reconcile_of_known hknown accepted)⟩

/-- Two renamed fixes beside one that is sent again; and two of which only the first is found, so
that its name is not written either. -/
theorem reconcileInPlace_atomic_half_way :
    let order := ["Vault", "TokenSale", "PriceOracle"]
    let batch : List Artifact :=
      [{ name := "price-oracle", code := "o" }, { name := "Vault", code := "w" },
        { name := "token_sale", code := "t" }]
    let renamed : List Artifact :=
      [{ name := "PriceOracle", code := "o" }, { name := "Vault", code := "w" },
        { name := "TokenSale", code := "t" }]
    let strange : List Artifact :=
      [{ name := "price-oracle", code := "o" }, { name := "sale", code := "t" }]
    let fault := MergeFault.ambiguous ["price-oracle", "sale"] ["TokenSale", "PriceOracle"]
    (Editing.perform (reconcileInPlace ["Vault"] order) batch = (.ok (), renamed) ∧
      (names batch).Nodup ∧ List.Forall₂ (Reconciled batch ["Vault"] order) batch renamed ∧
      (names renamed).Nodup ∧
      Editing.perform (reconcileInPlace ["Vault"] order) renamed = (.ok (), renamed)) ∧
    Editing.perform (reconcileInPlace ["Vault"] order) strange = (.error fault, strange) ∧
      reconcile strange ["Vault"] order = .error fault := by
  intro order batch renamed strange fault
  have hrenamed : Editing.perform (reconcileInPlace ["Vault"] order) batch = (.ok (), renamed) := by
    decide
  have hstrange : Editing.perform (reconcileInPlace ["Vault"] order) strange =
      (.error fault, strange) := by
    decide
  have hnodup : (names batch).Nodup := by decide
  have hsuccess := reconcileInPlace_atomic batch ["Vault"] order
  have hfailure := reconcileInPlace_atomic strange ["Vault"] order
  rw [hrenamed] at hsuccess
  rw [hstrange] at hfailure
  obtain ⟨-, hentries, -, hdistinct, hagain⟩ := hsuccess
  exact ⟨⟨hrenamed, hnodup, hentries, hdistinct hnodup, hagain⟩, hstrange, hfailure.2⟩

end Repair
end ContractConversion
