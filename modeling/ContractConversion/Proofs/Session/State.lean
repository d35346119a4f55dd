import ContractConversion.Proofs.Repair.Merge
import ContractConversion.Session.State

/-!
# What an answer does to the artifacts of a session

The artifacts of a session have distinct names in a fixed order, and each knows its place
(`SessionState.WellFormed`). An answer that is taken in keeps that (`applyOutput_spec`):

* the accepted artifacts stay exactly as they are;
* all others are new, belong to the current attempt and are not validated;
* `RawGeneration.Gives` says where their code comes from.
-/

namespace ContractConversion

open Json (Value)

/-! ## The artifacts of an answer -/

namespace Generation

/-- The artifacts of contracts, by place. -/
lemma getElem?_artifactsFrom (attempt : ℕ) (contracts : List GeneratedContract) (order i : ℕ) :
    (artifactsFrom attempt order contracts)[i]? = contracts[i]?.map fun c =>
      { name := c.name, code := c.code, role := c.role, order := order + i, attempt } := by
  induction contracts generalizing order i with
  | nil => rfl
  | cons c rest ih =>
    cases i with
    | zero => rfl
    | succ i =>
      rw [artifactsFrom, List.getElem?_cons_succ, ih, List.getElem?_cons_succ, Nat.add_right_comm,
        Nat.add_assoc]

lemma names_artifactsFrom (attempt : ℕ) (contracts : List GeneratedContract) (order : ℕ) :
    Repair.names (artifactsFrom attempt order contracts) = contracts.map (·.name) := by
  induction contracts generalizing order with
  | nil => rfl
  | cons c rest ih => rw [artifactsFrom, Repair.names_cons, ih, List.map_cons]

/-- An artifact of contracts comes from one of them. -/
lemma mem_artifactsFrom {attempt order : ℕ} {contracts : List GeneratedContract} {a : Artifact}
    (ha : a ∈ artifactsFrom attempt order contracts) :
    a.attempt = attempt ∧ a.validated = false ∧
      ∃ c ∈ contracts, c.name = a.name ∧ c.code = a.code := by
  obtain ⟨i, hi⟩ := List.mem_iff_getElem?.mp ha
  rw [getElem?_artifactsFrom] at hi
  obtain ⟨c, hc, rfl⟩ := Option.map_eq_some_iff.mp hi
  exact ⟨rfl, rfl, c, List.mem_of_getElem? hc, rfl, rfl⟩

/-- An artifact of an answer belongs to its attempt and is not validated. -/
lemma mem_artifacts {output : Generation} {attempt : ℕ} {singleName : String} {a : Artifact}
    (ha : a ∈ output.artifacts attempt singleName) : a.attempt = attempt ∧ a.validated = false := by
  cases output with
  | single code =>
    obtain rfl := List.mem_singleton.mp ha
    exact ⟨rfl, rfl⟩
  | multi contracts deployment =>
    obtain ⟨hattempt, hvalidated, -⟩ := mem_artifactsFrom ha
    exact ⟨hattempt, hvalidated⟩

/-- An artifact of an answer knows its place. -/
lemma order_artifacts {output : Generation} {attempt : ℕ} {singleName : String} {a : Artifact}
    {i : ℕ} (ha : (output.artifacts attempt singleName)[i]? = some a) : a.order = i := by
  cases output with
  | single code =>
    cases i with
    | zero =>
      obtain rfl := Option.some.inj ha
      rfl
    | succ i => simp [artifacts] at ha
  | multi contracts deployment =>
    rw [artifacts, getElem?_artifactsFrom] at ha
    obtain ⟨c, -, rfl⟩ := Option.map_eq_some_iff.mp ha
    exact Nat.zero_add i

/-- Contracts without an objection have distinct names. -/
lemma nodup_of_nameFault? {seen : List String} {contracts : List GeneratedContract}
    (h : nameFault? seen contracts = none) :
    (contracts.map (·.name)).Nodup ∧ ∀ c ∈ contracts, c.name ∉ seen := by
  induction contracts generalizing seen with
  | nil => simp
  | cons c rest ih =>
    rw [nameFault?] at h
    split at h
    · exact absurd h (by simp)
    · split at h
      · exact absurd h (by simp)
      · next hseen =>
        -- the name of the head is seen from here on, so the rest does not have it
        obtain ⟨hnodup, hnew⟩ := ih h
        refine ⟨List.nodup_cons.mpr ⟨fun hmem => ?_, hnodup⟩, fun d hd => ?_⟩
        · obtain ⟨d, hd, hname⟩ := List.mem_map.mp hmem
          exact hnew d hd (hname ▸ List.mem_cons_self)
        · rcases List.mem_cons.mp hd with rfl | hd
          · exact hseen
          · exact fun h => hnew d hd (List.mem_cons_of_mem _ h)

/-- What a first answer that can be classified holds. -/
lemma classify_ok {data : Value} {output : Generation} (h : classify data = .ok output) :
    ∃ r, raw data = .ok r ∧
      ((∃ code, output = .single code ∧ r.code = some code ∧ r.contracts.getD [] = []) ∨
        ∃ contracts, output = .multi contracts r.deployment ∧ r.contracts = some contracts ∧
          nameFault? [] contracts = none) := by
  obtain ⟨r, hr, h⟩ := bind_eq_ok.mp h
  refine ⟨r, hr, ?_⟩
  split at h
  -- contracts come first, and code counts only without them
  · next c rest hcontracts =>
    split at h
    · exact absurd h throw_ne_ok
    · next hfault =>
      obtain rfl := Except.ok.inj h
      exact Or.inr ⟨_, rfl, hcontracts, hfault⟩
  · next code hcode hnone =>
    obtain rfl := Except.ok.inj h
    refine Or.inl ⟨code, rfl, hcode, ?_⟩
    cases hcontracts : r.contracts with
    | none => rfl
    | some contracts =>
      cases contracts with
      | nil => rfl
      | cons c rest => exact absurd hcontracts (hnone c rest)
  · exact absurd h throw_ne_ok

/-- What a later answer that can be read in the session's mode holds. -/
lemma parseAs_ok {mode : Mode} {data : Value} {output : Generation}
    (h : parseAs mode data = .ok output) :
    ∃ r, raw data = .ok r ∧
      ((mode = .multi ∧ ∃ contracts, output = .multi contracts r.deployment ∧
          r.contracts = some contracts) ∨
        mode = .single ∧ ∃ code, output = .single code ∧
          (r.code = some code ∨ r.code = none ∧ ∃ only, r.contracts = some [only] ∧
            only.code = code)) := by
  obtain ⟨r, hr, h⟩ := bind_eq_ok.mp h
  refine ⟨r, hr, ?_⟩
  cases mode with
  | multi =>
    refine Or.inl ⟨rfl, ?_⟩
    cases hcontracts : r.contracts with
    | none =>
      rw [hcontracts] at h
      exact absurd h throw_ne_ok
    | some contracts =>
      rw [hcontracts] at h
      obtain rfl := Except.ok.inj h
      exact ⟨contracts, rfl, rfl⟩
  | single =>
    refine Or.inr ⟨rfl, ?_⟩
    dsimp only at h
    split at h
    · next code hcode =>
      obtain rfl := Except.ok.inj h
      exact ⟨code, rfl, Or.inl hcode⟩
    · next only hcode hcontracts =>
      obtain rfl := Except.ok.inj h
      exact ⟨_, rfl, Or.inr ⟨hcode, only, hcontracts, rfl⟩⟩
    · exact absurd h throw_ne_ok

/-- The mode that an answer fixes if it is the first one. -/
def modeOf? (data : Value) : Option Mode :=
  (classify data).toOption.map (·.mode)

lemma modeOf?_of_ok {data : Value} {output : Generation} (h : classify data = .ok output) :
    modeOf? data = some output.mode := by
  rw [modeOf?, h]
  rfl

lemma modeOf?_of_error {data : Value} {fault : OracleFault} (h : classify data = .error fault) :
    modeOf? data = none := by
  rw [modeOf?, h]
  rfl

end Generation

/-! ## Where code comes from -/

/-- The reply gives the code for a name when it is read in a mode, which is missing for a first
reply. `order` are the names of the session, `accepted` those of its accepted artifacts. -/
inductive RawGeneration.Gives (r : RawGeneration) (accepted order : List String) :
    Option Mode → String → String → Prop
  /-- A first reply without contracts. -/
  | code {name code : String} (h : r.code = some code) (hnone : r.contracts.getD [] = []) :
      Gives r accepted order none name code
  /-- The contract of the name in a first reply. -/
  | contract {contracts : List GeneratedContract} {c : GeneratedContract}
      (h : r.contracts = some contracts) (hc : c ∈ contracts) :
      Gives r accepted order none c.name c.code
  | repairedCode {name code : String} (h : r.code = some code) :
      Gives r accepted order (some .single) name code
  | onlyContract {name : String} {only : GeneratedContract} (hcode : r.code = none)
      (h : r.contracts = some [only]) : Gives r accepted order (some .single) name only.code
  /-- The first contract of its name in a repair, under the name that reconciliation gives it. A
  name of the session stays. -/
  | fix {attempt : ℕ} {contracts : List GeneratedContract} {fixes : List Artifact} {j : ℕ}
      {fix renamed : Artifact} (h : r.contracts = some contracts)
      (hfixes : Repair.reconcile
        (Repair.firstOfEach [] (Generation.artifactsFrom attempt 0 contracts)) accepted order =
          .ok fixes)
      (hfix : (Repair.firstOfEach [] (Generation.artifactsFrom attempt 0 contracts))[j]? = some fix)
      (hrenamed : fixes[j]? = some renamed)
      (hname : fix.name = renamed.name ∨ fix.name ∉ order) :
      Gives r accepted order (some .multi) renamed.name fix.code

/-! ## Taking in an answer -/

namespace SessionState

/-- The artifacts have distinct names, those of the order, and know their places; there are none
before the mode is fixed. -/
structure WellFormed (s : SessionState) : Prop where
  fresh : s.mode = none → s.artifacts = []
  names : Repair.names s.artifacts = s.order
  nodup : s.order.Nodup
  place : ∀ (i : ℕ) (a : Artifact), s.artifacts[i]? = some a → a.order = i

lemma mem_accepted {s : SessionState} {a : Artifact} :
    a ∈ s.accepted ↔ a ∈ s.artifacts ∧ a.validated = true :=
  List.mem_filter

lemma validated_of_allValid {s : SessionState} (h : s.allValid = true) {a : Artifact}
    (ha : a ∈ s.artifacts) : a.validated = true := by
  rw [allValid, Bool.and_eq_true] at h
  exact List.all_eq_true.mp h.2 a ha

lemma WellFormed.nodup_names {s : SessionState} (hs : s.WellFormed) :
    (Repair.names s.artifacts).Nodup := by
  rw [hs.names]
  exact hs.nodup

lemma WellFormed.nodup_accepted {s : SessionState} (hs : s.WellFormed) :
    (Repair.names s.accepted).Nodup := by
  have hsub : (Repair.names s.accepted).Sublist (Repair.names s.artifacts) :=
    List.filter_sublist.map _
  exact hs.nodup_names.sublist hsub

/-- The artifact `a` of a well-formed state stands in the slot of its name. -/
lemma WellFormed.getElem?_order {s : SessionState} (hs : s.WellFormed) {a : Artifact}
    (ha : a ∈ s.artifacts) : s.order[a.order]? = some a.name := by
  obtain ⟨i, hi⟩ := List.mem_iff_getElem?.mp ha
  rw [hs.place i a hi, ← hs.names, Repair.names, List.getElem?_map, hi, Option.map_some]

/-- What a state makes of an answer that it takes in. -/
structure Takes (s : SessionState) (data : Value) (s' : SessionState) : Prop where
  wellFormed : s'.WellFormed
  attempt : s'.attempt = s.attempt
  mode : s'.mode = s.mode.or (Generation.modeOf? data)
  /-- The accepted artifacts stay as they are. -/
  accepted : ∀ a, a ∈ s'.accepted ↔ a ∈ s.accepted
  /-- All others are new. -/
  others : ∀ a ∈ s'.artifacts, a.validated = false → a.attempt = s.attempt ∧
    ∃ r, Generation.raw data = .ok r ∧
      r.Gives (Repair.names s.accepted) s.order s.mode a.name a.code

/-- The first answer is taken in as it is. -/
lemma applyOutput_first {s s' : SessionState} {data : Value} (hs : s.WellFormed)
    (hmode : s.mode = none) (h : s.applyOutput data = .ok s') : s.Takes data s' := by
  rw [applyOutput, hmode] at h
  obtain ⟨output, houtput, h⟩ := bind_eq_ok.mp h
  obtain rfl := Except.ok.inj h
  have hclassify := ok_of_mapError houtput
  obtain ⟨r, hr, hshape⟩ := Generation.classify_ok hclassify
  have hnew : ∀ a ∈ output.artifacts s.attempt s.plan.singleName,
      a.attempt = s.attempt ∧ a.validated = false := fun a ha => Generation.mem_artifacts ha
  refine ⟨⟨fun h => absurd h (by simp), rfl, ?_, fun i a => Generation.order_artifacts⟩, rfl, ?_,
    fun a => ?_, fun a ha hvalid => ⟨(hnew a ha).1, r, hr, ?_⟩⟩
  · rcases hshape with ⟨code, rfl, -⟩ | ⟨contracts, rfl, -, hfault⟩
    · exact List.nodup_singleton _
    · have hnames := Generation.names_artifactsFrom s.attempt contracts 0
      rw [Repair.names] at hnames
      rw [Generation.artifacts, hnames]
      exact (Generation.nodup_of_nameFault? hfault).1
  · rw [hmode, Generation.modeOf?_of_ok hclassify]
    rfl
  · -- neither the new artifacts nor the ones before are accepted
    rw [mem_accepted, mem_accepted, hs.fresh hmode]
    constructor
    · rintro ⟨ha, hvalid⟩
      exact absurd hvalid (by simp [(hnew a ha).2])
    · rintro ⟨ha, -⟩
      exact absurd ha List.not_mem_nil
  · rw [hmode]
    rcases hshape with ⟨code, rfl, hcode, hnone⟩ | ⟨contracts, rfl, hcontracts, -⟩
    · obtain rfl := List.mem_singleton.mp ha
      exact .code hcode hnone
    · obtain ⟨-, -, c, hc, hname, hcode⟩ := Generation.mem_artifactsFrom ha
      rw [← hname, ← hcode]
      exact .contract hcontracts hc

/-- A later answer is merged over the accepted artifacts. -/
lemma applyOutput_later {s s' : SessionState} {data : Value} {mode : Mode} (hs : s.WellFormed)
    (hmode : s.mode = some mode) (h : s.applyOutput data = .ok s') : s.Takes data s' := by
  rw [applyOutput, hmode] at h
  obtain ⟨output, houtput, h⟩ := bind_eq_ok.mp h
  obtain ⟨merged, hmerged, h⟩ := bind_eq_ok.mp h
  obtain rfl := Except.ok.inj h
  obtain ⟨r, hr, hshape⟩ := Generation.parseAs_ok (ok_of_mapError houtput)
  have hmerge := ok_of_mapError hmerged
  have hnames := Repair.names_merge hs.nodup hmerge
  have hnew : ∀ a ∈ Repair.firstOfEach [] (output.artifacts s.attempt s.plan.singleName),
      a.attempt = s.attempt ∧ a.validated = false :=
    fun a ha => Generation.mem_artifacts (Repair.mem_of_mem_firstOfEach ha)
  refine ⟨⟨fun h => absurd h (by simp), hnames, hs.nodup, fun i a => Repair.order_merge hs.nodup
    hmerge⟩, rfl, by rw [hmode]; rfl, fun a => ?_, fun a ha hvalid => ?_⟩
  · rw [mem_accepted]
    constructor
    · rintro ⟨ha, hvalid⟩
      obtain ⟨i, hi⟩ := List.mem_iff_getElem?.mp ha
      rcases Repair.mem_merge hs.nodup hmerge hi with
        ⟨b, hb, rfl⟩ | ⟨fixes, -, j, fix, renamed, hfix, -, rfl, -⟩
      · -- the slot is the one in which the artifact stood before
        have hslot : s.order[i]? = some b.name := by
          rw [← hnames, Repair.names, List.getElem?_map, hi, Option.map_some]
        have hplace := hs.getElem?_order (mem_accepted.mp hb).1
        obtain ⟨hlt, -⟩ := List.getElem?_eq_some_iff.mp hslot
        obtain rfl : i = b.order := (List.getElem?_inj hlt hs.nodup).mp (hslot.trans hplace.symm)
        exact hb
      · exact absurd hvalid (by simp [(hnew fix (List.mem_of_getElem? hfix)).2])
    · intro ha
      have hplace := hs.getElem?_order (mem_accepted.mp ha).1
      have hslot := Repair.accepted_mem_merge hs.nodup hs.nodup_accepted hmerge ha hplace
      exact ⟨List.mem_of_getElem? hslot, (mem_accepted.mp ha).2⟩
  · obtain ⟨i, hi⟩ := List.mem_iff_getElem?.mp ha
    rcases Repair.mem_merge hs.nodup hmerge hi with
      ⟨b, hb, rfl⟩ | ⟨fixes, hfixes, j, fix, renamed, hfix, hrenamed, rfl, hname⟩
    · exact absurd (mem_accepted.mp hb).2 (by simpa using hvalid)
    · -- the slot has its code from a fix of this attempt
      refine ⟨(hnew fix (List.mem_of_getElem? hfix)).1, r, hr, ?_⟩
      rw [hmode]
      rcases hshape with ⟨rfl, contracts, rfl, hcontracts⟩ | ⟨rfl, code, rfl, hcode⟩
      · have hgives : r.Gives (Repair.names s.accepted) s.order (some .multi) renamed.name
            fix.code := .fix hcontracts hfixes hfix hrenamed hname
        exact hgives
      · obtain rfl := List.mem_singleton.mp (Repair.mem_of_mem_firstOfEach
          (List.mem_of_getElem? hfix))
        rcases hcode with hcode | ⟨hcode, only, hcontracts, rfl⟩
        · exact .repairedCode hcode
        · exact .onlyContract hcode hcontracts

/-- **An answer that is taken in leaves the accepted artifacts as they are** and brings new code for
all others. -/
theorem applyOutput_spec {s s' : SessionState} {data : Value} (hs : s.WellFormed)
    (h : s.applyOutput data = .ok s') : s.Takes data s' := by
  cases hmode : s.mode with
  | none => exact applyOutput_first hs hmode h
  | some mode => exact applyOutput_later hs hmode h

/-- An answer that cannot be taken in fixes no mode either. -/
lemma mode_of_applyOutput_error {s : SessionState} {data : Value} {fault : AttemptFault}
    (h : s.applyOutput data = .error fault) : s.mode.or (Generation.modeOf? data) = s.mode := by
  cases hmode : s.mode with
  | some mode => rfl
  | none =>
    rw [applyOutput, hmode] at h
    cases hc : Generation.classify data with
    | error fault => exact Generation.modeOf?_of_error hc
    | ok output => simp [hc, Except.mapError, bind, Except.bind, pure, Except.pure] at h

end SessionState

end ContractConversion
