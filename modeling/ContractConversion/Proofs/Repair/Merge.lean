import ContractConversion.Proofs.Except
import ContractConversion.Proofs.Repair.Reconciliation
import Mathlib.Logic.Equiv.Basic
import Mathlib.Order.Fin.Basic

/-!
# Merging fixes: nothing lost, nothing used twice

A merge fills the slots of the fixed order. Two things are shown of a merge that succeeds:

* an accepted artifact stands in its slot as it was, but for its place (`accepted_mem_merge`);
* the other slots and the fixes that count, namely the first of each name that is not accepted,
  belong together one to one, and a slot has everything but name and place from its fix
  (`slot_of_fix`, `fix_of_slot`, `eq_of_slot_eq`).

`merge_fills_slots` puts both together.
-/

namespace ContractConversion

namespace Repair

/-! ## Looking artifacts up by name -/

lemma lastNamed?_some {batch : List Artifact} {name : String} {a : Artifact}
    (h : lastNamed? batch name = some a) : a ∈ batch ∧ a.name = name := by
  rw [lastNamed?] at h
  have hname := List.find?_some h
  exact ⟨List.mem_reverse.mp (List.mem_of_find?_eq_some h), of_decide_eq_true hname⟩

lemma lastNamed?_eq_none {batch : List Artifact} {name : String} :
    lastNamed? batch name = none ↔ name ∉ names batch := by
  simp [lastNamed?, mem_names]

/-- Where names are distinct, every artifact is found under its name. -/
lemma lastNamed?_of_mem {batch : List Artifact} (hnodup : (names batch).Nodup) {a : Artifact}
    (ha : a ∈ batch) : lastNamed? batch a.name = some a := by
  cases h : lastNamed? batch a.name with
  | none => exact absurd (mem_names.mpr ⟨a, ha, rfl⟩) (lastNamed?_eq_none.mp h)
  | some b =>
    obtain ⟨hb, hname⟩ := lastNamed?_some h
    rw [eq_of_name_eq hnodup hb ha hname]

lemma lastNamed?_filter_ne {batch : List Artifact} {name other : String} (hne : name ≠ other) :
    lastNamed? (batch.filter (·.name ≠ other)) name = lastNamed? batch name := by
  rw [lastNamed?, lastNamed?, ← List.filter_reverse, List.find?_filter]
  congr 1
  funext a
  by_cases h : a.name = name <;> simp [h, hne]

/-- What goes into the slot of a name: the accepted artifact of this name, else its fix. -/
def supplier? (accepted fixes : List Artifact) (name : String) : Option Artifact :=
  (lastNamed? accepted name).or (lastNamed? fixes name)

lemma supplier?_name {accepted fixes : List Artifact} {name : String} {a : Artifact}
    (h : supplier? accepted fixes name = some a) : a.name = name := by
  rcases Option.or_eq_some_iff.mp h with h | ⟨-, h⟩
  · exact (lastNamed?_some h).2
  · exact (lastNamed?_some h).2

lemma supplier?_of_accepted {accepted fixes : List Artifact} (hnodup : (names accepted).Nodup)
    {a : Artifact} (ha : a ∈ accepted) : supplier? accepted fixes a.name = some a := by
  rw [supplier?, lastNamed?_of_mem hnodup ha, Option.some_or]

lemma supplier?_of_not_accepted {accepted fixes : List Artifact} {name : String}
    (h : name ∉ names accepted) : supplier? accepted fixes name = lastNamed? fixes name := by
  rw [supplier?, lastNamed?_eq_none.mpr h, Option.none_or]

/-! ## Filling the slots -/

/-- Each slot holds what its name's supplier gives, with the place of the slot. -/
lemma fillSlots_ok {accepted fixes filled : List Artifact} {position : ℕ} {order : List String}
    (hnodup : order.Nodup) (h : fillSlots accepted fixes position order = .ok filled) :
    filled.length = order.length ∧ ∀ (i : ℕ) (name : String), order[i]? = some name →
      ∃ a, supplier? accepted fixes name = some a ∧
        filled[i]? = some { a with order := position + i } := by
  -- a fix that is used leaves the fixes, so the induction is for all of them
  induction order generalizing fixes position filled with
  | nil =>
    obtain rfl := Except.ok.inj h
    simp
  | cons head rest ih =>
    obtain ⟨hhead, hrest⟩ := List.nodup_cons.mp hnodup
    rw [fillSlots] at h
    split at h
    · exact absurd h (by simp)
    · next a ha =>
      obtain ⟨others, hothers, hpure⟩ := bind_eq_ok.mp h
      obtain rfl := Except.ok.inj hpure
      obtain ⟨hlen, hslots⟩ := ih hrest hothers
      refine ⟨by simp [hlen], fun i name hi => ?_⟩
      cases i with
      | zero =>
        obtain rfl : head = name := by simpa using hi
        exact ⟨a, ha, by simp⟩
      | succ i =>
        -- the fix taken for the head has another name, so the later slots do not miss it
        have hmem : name ∈ rest := List.mem_of_getElem? (by simpa using hi)
        have hne : name ≠ head := fun h => hhead (h ▸ hmem)
        obtain ⟨b, hb, hplace⟩ := hslots i name (by simpa using hi)
        refine ⟨b, ?_, ?_⟩
        · rwa [supplier?, lastNamed?_filter_ne hne] at hb
        · rw [List.getElem?_cons_succ, hplace, Nat.add_right_comm, Nat.add_assoc]

/-- A merge reconciles the first fix of each name and fills the slots with the result. -/
lemma merge_ok {accepted batch merged : List Artifact} {order : List String}
    (h : merge accepted batch order = .ok merged) :
    ∃ fixes, reconcile (firstOfEach [] batch) (names accepted) order = .ok fixes ∧
      fillSlots accepted fixes 0 order = .ok merged :=
  bind_eq_ok.mp h

/-- The slots of a merge, by place: what is in them and where it comes from. -/
lemma merge_slot {accepted batch merged : List Artifact} {order : List String}
    (hnodup : order.Nodup) (h : merge accepted batch order = .ok merged) :
    ∃ fixes, reconcile (firstOfEach [] batch) (names accepted) order = .ok fixes ∧
      merged.length = order.length ∧ ∀ (i : ℕ) (name : String), order[i]? = some name →
        ∃ a, supplier? accepted fixes name = some a ∧ merged[i]? = some { a with order := i } := by
  obtain ⟨fixes, hfixes, hfill⟩ := merge_ok h
  obtain ⟨hlen, hslots⟩ := fillSlots_ok hnodup hfill
  refine ⟨fixes, hfixes, hlen, fun i name hi => ?_⟩
  obtain ⟨a, ha, hplace⟩ := hslots i name hi
  exact ⟨a, ha, by rwa [Nat.zero_add] at hplace⟩

/-- The merged artifacts have exactly the names of the order. -/
lemma names_merge {accepted batch merged : List Artifact} {order : List String}
    (hnodup : order.Nodup) (h : merge accepted batch order = .ok merged) :
    names merged = order := by
  obtain ⟨fixes, -, hlen, hslots⟩ := merge_slot hnodup h
  refine List.ext_getElem? fun i => ?_
  rw [names, List.getElem?_map]
  cases hi : order[i]? with
  | none =>
    rw [List.getElem?_eq_none_iff] at hi
    rw [List.getElem?_eq_none (by omega), Option.map_none]
  | some name =>
    obtain ⟨a, ha, hplace⟩ := hslots i name hi
    rw [hplace, Option.map_some, supplier?_name ha]

/-- A merged artifact knows its place. -/
lemma order_merge {accepted batch merged : List Artifact} {order : List String}
    (hnodup : order.Nodup) (h : merge accepted batch order = .ok merged) {i : ℕ} {b : Artifact}
    (hb : merged[i]? = some b) : b.order = i := by
  obtain ⟨fixes, -, hlen, hslots⟩ := merge_slot hnodup h
  have hlt : i < order.length := by
    have := (List.getElem?_eq_some_iff.mp hb).1
    omega
  obtain ⟨a, -, hplace⟩ := hslots i order[i] (List.getElem?_eq_getElem hlt)
  rw [hb] at hplace
  rw [Option.some.inj hplace]

/-- An accepted artifact stands in its slot unchanged, but for its place. -/
lemma accepted_mem_merge {accepted batch merged : List Artifact} {order : List String}
    (hnodup : order.Nodup) (hnames : (names accepted).Nodup)
    (h : merge accepted batch order = .ok merged) {a : Artifact} (ha : a ∈ accepted) {i : ℕ}
    (hi : order[i]? = some a.name) : merged[i]? = some { a with order := i } := by
  obtain ⟨fixes, -, -, hslots⟩ := merge_slot hnodup h
  obtain ⟨b, hb, hplace⟩ := hslots i a.name hi
  rw [supplier?_of_accepted hnames ha] at hb
  rw [hplace, Option.some.inj hb]

/-- A merged artifact is the accepted one of its name, or the first fix of a name that
reconciliation leaves alone or turns into the name of the slot. -/
lemma mem_merge {accepted batch merged : List Artifact} {order : List String}
    (hnodup : order.Nodup) (h : merge accepted batch order = .ok merged) {i : ℕ} {b : Artifact}
    (hb : merged[i]? = some b) :
    (∃ a ∈ accepted, b = { a with order := i }) ∨
      ∃ fixes, reconcile (firstOfEach [] batch) (names accepted) order = .ok fixes ∧
        ∃ (j : ℕ) (fix renamed : Artifact),
          (firstOfEach [] batch)[j]? = some fix ∧ fixes[j]? = some renamed ∧
          b = { fix with name := renamed.name, order := i } ∧
          (fix.name = renamed.name ∨ fix.name ∉ order) := by
  obtain ⟨fixes, hfixes, hlen, hslots⟩ := merge_slot hnodup h
  have hlt : i < order.length := by
    have := (List.getElem?_eq_some_iff.mp hb).1
    omega
  obtain ⟨a, ha, hplace⟩ := hslots i order[i] (List.getElem?_eq_getElem hlt)
  obtain rfl := Option.some.inj (hb.symm.trans hplace)
  rcases Option.or_eq_some_iff.mp ha with ha | ⟨-, ha⟩
  · exact Or.inl ⟨a, (lastNamed?_some ha).1, rfl⟩
  · obtain ⟨ρ, rfl, hρ⟩ := reconcile_ok (nodup_names_firstOfEach [] batch) hfixes
    obtain ⟨j, hj⟩ := List.mem_iff_getElem?.mp (lastNamed?_some ha).1
    obtain ⟨fix, hfix, rfl⟩ : ∃ fix, (firstOfEach [] batch)[j]? = some fix ∧ relabel ρ fix = a := by
      rwa [List.getElem?_map, Option.map_eq_some_iff] at hj
    refine Or.inr ⟨_, hfixes, j, fix, _, hfix, hj, rfl, ?_⟩
    by_cases horder : fix.name ∈ order
    · exact Or.inl (hρ.known _ horder).symm
    · exact Or.inr horder

/-! ## The slots that are not accepted and their fixes -/

/-- The artifact of a slot has everything but name and place from the fix, and the name too if the
order has it. -/
def IsFilledBy (order : List String) (slot fix : Artifact) : Prop :=
  slot = { fix with name := slot.name, order := slot.order } ∧
    (fix.name ∈ order → slot.name = fix.name)

/-- A place of the merged artifacts whose name is not accepted. -/
abbrev OpenSlot (accepted merged : List Artifact) : Type :=
  { i : Fin merged.length // merged[i].name ∉ names accepted }

/-- A place of the batch whose fix counts: its name is not accepted, and no fix before it has it. -/
abbrev CountedFix (accepted batch : List Artifact) : Type :=
  { j : Fin batch.length // batch[j].name ∉ names accepted ∧
    ∀ k < j, batch[k].name ≠ batch[j].name }

/-- The fix at a place that counts is what `firstOfEach` keeps of its name. -/
lemma CountedFix.mem_firstOfEach {accepted batch : List Artifact} (j : CountedFix accepted batch) :
    batch[j.1] ∈ firstOfEach [] batch := by
  refine Repair.mem_firstOfEach.mpr ⟨by simp, j.1, by simp, fun k hk b hb => ?_⟩
  obtain ⟨hlt, rfl⟩ := List.getElem?_eq_some_iff.mp hb
  exact j.2.2 ⟨k, hlt⟩ hk

/-- Two places that count have different names. -/
lemma CountedFix.eq_of_name_eq {accepted batch : List Artifact} {j k : CountedFix accepted batch}
    (h : batch[j.1].name = batch[k.1].name) : j = k := by
  refine Subtype.ext (le_antisymm ?_ ?_)
  · by_contra hlt
    exact j.2.2 k.1 (not_le.mp hlt) h.symm
  · by_contra hlt
    exact k.2.2 j.1 (not_le.mp hlt) h

/-- What `firstOfEach` keeps stands at a place that counts, unless its name is accepted. -/
lemma exists_countedFix {accepted batch : List Artifact} {a : Artifact}
    (ha : a ∈ firstOfEach [] batch) (hname : a.name ∉ names accepted) :
    ∃ j : CountedFix accepted batch, batch[j.1] = a := by
  obtain ⟨-, j, hj, hfirst⟩ := mem_firstOfEach.mp ha
  obtain ⟨hlt, rfl⟩ := List.getElem?_eq_some_iff.mp hj
  refine ⟨⟨⟨j, hlt⟩, hname, fun k hk => ?_⟩, rfl⟩
  exact hfirst k hk batch[k] (by simp)

section Slots

variable {accepted batch merged : List Artifact} {order : List String} {ρ : String → String}

/-- The fix that counts goes under its new name into the slot of this name, and the slot is open. -/
lemma slot_of_fix (hnodup : order.Nodup) (h : merge accepted batch order = .ok merged)
    (hfixes : reconcile (firstOfEach [] batch) (names accepted) order =
      .ok ((firstOfEach [] batch).map (relabel ρ)))
    (hρ : Relabelling (firstOfEach [] batch) (names accepted) order ρ)
    (j : CountedFix accepted batch) :
    ∃ i : OpenSlot accepted merged, (i.1 : ℕ) = order.idxOf (ρ batch[j.1].name) ∧
      merged[i.1] = { relabel ρ batch[j.1] with order := i.1 } := by
  have hmem := j.mem_firstOfEach
  have hname : batch[j.1].name ∈ names (firstOfEach [] batch) := mem_names.mpr ⟨_, hmem, rfl⟩
  have hopen : ρ batch[j.1].name ∉ names accepted := by
    by_cases horder : batch[j.1].name ∈ order
    · rw [hρ.known _ horder]
      exact j.2.1
    · exact (hρ.missing _ hname horder).1
  -- the fixes have distinct names, so the slot finds this one
  have hdistinct : (names ((firstOfEach [] batch).map (relabel ρ))).Nodup := by
    rw [names_map_relabel]
    exact (nodup_names_firstOfEach [] batch).map_on hρ.inj
  have hfound : lastNamed? ((firstOfEach [] batch).map (relabel ρ)) (ρ batch[j.1].name) =
      some (relabel ρ batch[j.1]) :=
    lastNamed?_of_mem hdistinct (List.mem_map_of_mem hmem)
  obtain ⟨fixes, hfixes', -, hslots⟩ := merge_slot hnodup h
  obtain rfl := Except.ok.inj (hfixes.symm.trans hfixes')
  obtain ⟨b, hb, hplace⟩ := hslots (order.idxOf (ρ batch[j.1].name)) (ρ batch[j.1].name)
    (List.getElem?_idxOf (hρ.mem_order _ hname))
  rw [supplier?_of_not_accepted hopen, hfound] at hb
  obtain rfl := Option.some.inj hb
  obtain ⟨hlt, hslot⟩ := List.getElem?_eq_some_iff.mp hplace
  refine ⟨⟨⟨_, hlt⟩, ?_⟩, rfl, hslot⟩
  rw [Fin.getElem_fin, hslot]
  exact hopen

/-- Every open slot is the slot of a fix that counts. -/
lemma fix_of_slot (hnodup : order.Nodup) (hsub : ∀ n ∈ names accepted, n ∈ order)
    (h : merge accepted batch order = .ok merged)
    (hfixes : reconcile (firstOfEach [] batch) (names accepted) order =
      .ok ((firstOfEach [] batch).map (relabel ρ)))
    (hρ : Relabelling (firstOfEach [] batch) (names accepted) order ρ)
    (i : OpenSlot accepted merged) :
    ∃ j : CountedFix accepted batch, order.idxOf (ρ batch[j.1].name) = i.1 := by
  have hname : order[(i.1 : ℕ)]? = some merged[i.1].name := by
    rw [← names_merge hnodup h, names, List.getElem?_map, List.getElem?_eq_getElem i.1.2]
    rfl
  obtain ⟨fixes, hfixes', -, hslots⟩ := merge_slot hnodup h
  obtain rfl := Except.ok.inj (hfixes.symm.trans hfixes')
  obtain ⟨b, hb, -⟩ := hslots i.1 _ hname
  rw [supplier?_of_not_accepted i.2] at hb
  obtain ⟨hmem, hb⟩ := lastNamed?_some hb
  obtain ⟨a, ha, rfl⟩ := List.mem_map.mp hmem
  rw [relabel_name] at hb
  -- an accepted name stays as it is, and the slot would not be open
  have hopen : a.name ∉ names accepted := by
    intro hacc
    rw [hρ.known _ (hsub _ hacc)] at hb
    exact i.2 (hb ▸ hacc)
  obtain ⟨j, rfl⟩ := exists_countedFix ha hopen
  refine ⟨j, ?_⟩
  obtain ⟨hlt, hget⟩ := List.getElem?_eq_some_iff.mp hname
  rw [hb, ← hget]
  exact hnodup.idxOf_getElem _ hlt

/-- Two fixes that count have two slots. -/
lemma eq_of_slot_eq (hρ : Relabelling (firstOfEach [] batch) (names accepted) order ρ)
    {j k : CountedFix accepted batch}
    (h : order.idxOf (ρ batch[j.1].name) = order.idxOf (ρ batch[k.1].name)) : j = k := by
  have hj : batch[j.1].name ∈ names (firstOfEach [] batch) :=
    mem_names.mpr ⟨_, j.mem_firstOfEach, rfl⟩
  have hk : batch[k.1].name ∈ names (firstOfEach [] batch) :=
    mem_names.mpr ⟨_, k.mem_firstOfEach, rfl⟩
  refine CountedFix.eq_of_name_eq (hρ.inj _ hj _ hk ?_)
  exact (List.idxOf_inj (hρ.mem_order _ hj)).mp h

end Slots

/-- **A merge loses nothing and uses nothing twice.** If it succeeds, its artifacts have the names
of the order and know their places, accepted artifacts are as they were but for their place, and
the other slots belong one to one to the fixes that count: a slot has everything but name and place
from its fix, and the name too if the order has it. -/
theorem merge_fills_slots {accepted batch merged : List Artifact} {order : List String}
    (horder : order.Nodup) (hnames : (names accepted).Nodup)
    (hsub : ∀ n ∈ names accepted, n ∈ order) (h : merge accepted batch order = .ok merged) :
    names merged = order ∧
    (∀ (i : ℕ) (b : Artifact), merged[i]? = some b → b.order = i) ∧
    (∀ a ∈ accepted, merged[order.idxOf a.name]? =
      some { a with order := order.idxOf a.name }) ∧
    ∃ f : OpenSlot accepted merged ≃ CountedFix accepted batch,
      ∀ i, IsFilledBy order merged[i.1] batch[(f i).1] := by
  refine ⟨names_merge horder h, fun i b hb => order_merge horder h hb, fun a ha => ?_, ?_⟩
  · have hmem : a.name ∈ order := hsub _ (mem_names.mpr ⟨a, ha, rfl⟩)
    exact accepted_mem_merge horder hnames h ha (List.getElem?_idxOf hmem)
  · obtain ⟨fixes, hfixes, -⟩ := merge_ok h
    obtain ⟨ρ, rfl, hρ⟩ := reconcile_ok (nodup_names_firstOfEach [] batch) hfixes
    choose g hg hslot using slot_of_fix horder h hfixes hρ
    -- `g` sends each fix that counts to its slot, and no open slot is left out
    have hbij : Function.Bijective g := by
      constructor
      · intro j k hjk
        exact eq_of_slot_eq hρ (by rw [← hg j, ← hg k, hjk])
      · intro i
        obtain ⟨j, hj⟩ := fix_of_slot horder hsub h hfixes hρ i
        exact ⟨j, Subtype.ext (Fin.ext ((hg j).trans hj))⟩
    have hfill : ∀ j, IsFilledBy order merged[(g j).1] batch[j.1] := by
      intro j
      rw [hslot j]
      exact ⟨rfl, hρ.known _⟩
    refine ⟨(Equiv.ofBijective g hbij).symm, fun i => ?_⟩
    have hi := hfill ((Equiv.ofBijective g hbij).symm i)
    simpa only [Equiv.ofBijective_apply_symm_apply g hbij i] using hi

/-- A repair that sends an accepted artifact again, renames another and repeats a third. -/
theorem merge_fills_slots_renamed :
    let accepted : List Artifact := [{ name := "Vault", code := "v1", validated := true }]
    let batch : List Artifact :=
      [{ name := "Vault", code := "v2" }, { name := "TokenV2", code := "t", order := 1 },
        { name := "Oracle", code := "o", order := 2 },
        { name := "Oracle", code := "p", order := 3 }]
    let order := ["Vault", "Token", "Oracle"]
    ∃ merged, merge accepted batch order = .ok merged ∧ names merged = order ∧
      ∃ f : OpenSlot accepted merged ≃ CountedFix accepted batch,
        ∀ i, IsFilledBy order merged[i.1] batch[(f i).1] := by
  intro accepted batch order
  have h := @merge_fills_slots accepted batch _ order (by decide) (by decide) (by decide) rfl
  exact ⟨_, rfl, h.1, h.2.2.2⟩

end Repair
end ContractConversion
