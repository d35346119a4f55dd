import ContractConversion.Proofs.Json.Nesting
import ContractConversion.Wire.Event

/-!
# What an event can carry

An event puts containers of its own around the JSON that it carries, and optional JSON that is null
is read as none. `Event.Portable` says what an event can carry, each piece with the number of
containers around it. As the containers of the event itself are few, a portable event is not too
deep to be read (`Event.Portable.depth_encode`). Nothing but a portable event is read from any line
(`Event.portable_of_ofLine`).
-/

namespace ContractConversion

/-! ## Bounds for containers -/

namespace Json

variable {d : ℕ}

lemma Codec.depth_list {α : Type} {c : Codec α} {xs : List α}
    (h : ∀ x ∈ xs, (c.encode x).depth ≤ d) : ((list c).encode xs).depth ≤ d + 1 :=
  Value.depth_arr_le.mpr (List.forall_mem_map.mpr h)

/-- What is written of the field has at most `d` containers inside one another. -/
def Field.Within {α : Type} (d : ℕ) (f : Field α) (a : α) : Prop :=
  ∀ v, f.write a = some v → v.depth ≤ d

namespace Field

variable {α : Type} {name : String} {c : Codec α}

lemma within_required {a : α} (h : (c.encode a).depth ≤ d) : (required name c).Within d a := by
  intro v hv
  obtain rfl := Option.some.inj hv
  exact h

lemma within_defaulted {a default : α} (h : (c.encode a).depth ≤ d) :
    (defaulted name c default).Within d a := by
  intro v hv
  obtain rfl := Option.some.inj hv
  exact h

lemma within_optional {x : Option α} (h : ∀ a, x = some a → (c.encode a).depth ≤ d) :
    (optional name c).Within d x := by
  intro v hv
  obtain ⟨a, ha, rfl⟩ := Option.map_eq_some_iff.mp hv
  exact h a ha

end Field

namespace Fields

/-- What is written of every field has at most `d` containers inside one another. -/
def Within (d : ℕ) : {types : List Type} → Fields types → Tuple types → Prop
  | [], _, _ => True
  | _ :: _, (f, fields), (a, tuple) => f.Within d a ∧ Within d fields tuple

lemma depth_of_mem_encode : {types : List Type} → (fields : Fields types) →
    (tuple : Tuple types) → fields.Within d tuple → ∀ m ∈ fields.encode tuple, m.2.depth ≤ d
  | [], _, _, _, _, h => absurd h List.not_mem_nil
  | _ :: _, (f, fields), (a, tuple), ⟨hfield, hfields⟩, m, h => by
    have hrest := depth_of_mem_encode fields tuple hfields
    rw [encode] at h
    cases hwrite : f.write a with
    | none =>
      rw [hwrite] at h
      exact hrest m h
    | some v =>
      rw [hwrite] at h
      rcases List.mem_cons.mp h with rfl | h
      · exact hfield v hwrite
      · exact hrest m h

/-- A record is one container around its fields. -/
lemma depth_encode {types : List Type} {fields : Fields types} {tuple : Tuple types}
    (h : fields.Within d tuple) : (Value.obj (fields.encode tuple)).depth ≤ d + 1 :=
  Value.depth_obj_le.mpr (depth_of_mem_encode fields tuple h)

end Fields

end Json

open Json

/-- Optional JSON that can be carried inside so many containers: it is not null, and its containers
are within the limit. -/
def Carried (depth : ℕ) (data : Option Value) : Prop :=
  ∀ v, data = some v → v ≠ .null ∧ depth + v.depth ≤ depthLimit

/-- All JSON that the event has can be carried inside the containers around it. -/
def Event.Portable : Event → Prop
  | phase1Complete analysis _ => 2 + analysis.depth ≤ depthLimit
  | artifactReady a => Carried 3 a.metadata
  | done r => Carried 3 r.deployment ∧ ∀ a ∈ r.artifacts, Carried 5 a.metadata
  | _ => True

namespace Wire

open Field

variable {d : ℕ}

/-! ## Records -/

lemma depth_strings (xs : List String) : ((Codec.list .string).encode xs).depth ≤ 1 :=
  Codec.depth_list fun _ _ => Nat.le_refl 0

lemma depth_usage (u : Usage) : (usage.encode u).depth ≤ 1 :=
  Nat.le_refl 1

lemma depth_plannedContract (c : PlannedContract) : (plannedContract.encode c).depth ≤ 1 :=
  Nat.le_refl 1

lemma depth_transaction (t : Transaction) : (transaction.encode t).depth ≤ 2 :=
  Fields.depth_encode ⟨within_required (Nat.zero_le 1), within_defaulted (Nat.zero_le 1),
    within_defaulted (depth_strings _), trivial⟩

lemma depth_report (r : Report) : (report.encode r).depth ≤ 3 :=
  Fields.depth_encode ⟨within_required (Nat.zero_le 2), within_required (Nat.zero_le 2),
    within_required (Codec.depth_list fun _ _ => Nat.le_refl 1), within_required (Nat.zero_le 2),
    within_required (Nat.zero_le 2), within_optional fun _ _ => Nat.zero_le 2, trivial⟩

lemma depth_artifact {a : Artifact} (h : ∀ v, a.metadata = some v → v.depth ≤ d) :
    (artifact.encode a).depth ≤ d + 1 :=
  Fields.depth_encode ⟨within_required (Nat.zero_le d), within_required (Nat.zero_le d),
    within_defaulted (Nat.zero_le d), within_optional fun _ _ => Nat.zero_le d,
    within_optional fun _ _ => Nat.zero_le d, within_defaulted (Nat.zero_le d),
    within_optional fun _ _ => Nat.zero_le d, within_optional h, within_defaulted (Nat.zero_le d),
    trivial⟩

lemma depth_result {r : ConversionResult}
    (hartifacts : ∀ a ∈ r.artifacts, ∀ v, a.metadata = some v → v.depth ≤ d + 1)
    (hdeployment : ∀ v, r.deployment = some v → v.depth ≤ d + 3) :
    (result.encode r).depth ≤ d + 4 := by
  have hall : ((Codec.list artifact).encode r.artifacts).depth ≤ d + 3 :=
    Codec.depth_list fun a ha => depth_artifact (hartifacts a ha)
  have htransactions : ((Codec.list transaction).encode r.transactions).depth ≤ d + 3 :=
    Codec.depth_list fun t _ => Nat.le_trans (depth_transaction t) (Nat.le_add_left 2 d)
  have husage : (usage.encode r.usage).depth ≤ d + 3 :=
    Nat.le_trans (depth_usage r.usage) (by omega)
  exact Fields.depth_encode ⟨within_required (Nat.zero_le _), within_required (Nat.zero_le _),
    within_required hall, within_defaulted htransactions, within_optional hdeployment,
    within_required (Nat.zero_le _), within_defaulted husage, within_required (Nat.zero_le _),
    trivial⟩

end Wire

/-! ## Events -/

open Field

/-- The content of an event stands in one more container. -/
lemma Wire.depth_event {e : Event} {d : ℕ} (h : ∀ v, eventData e = some v → v.depth ≤ d) :
    (encodeEvent e).depth ≤ d + 1 := by
  rw [encodeEvent]
  split
  · next data hdata =>
    refine Value.depth_obj_le.mpr fun m hm => ?_
    rcases List.mem_cons.mp hm with rfl | hm
    · exact Nat.zero_le d
    · obtain rfl := List.mem_singleton.mp hm
      exact h data hdata
  · refine Value.depth_obj_le.mpr fun m hm => ?_
    obtain rfl := List.mem_singleton.mp hm
    exact Nat.zero_le d

/-- **A portable event is not too deep to be read.** -/
theorem Event.Portable.depth_encode {e : Event} (h : e.Portable) :
    (Wire.encodeEvent e).depth ≤ depthLimit := by
  have hlimit : depthLimit = 126 + 1 := rfl
  rw [hlimit]
  refine Wire.depth_event fun data hdata => ?_
  cases e with
  | phase1Start id =>
    obtain rfl := Option.some.inj hdata
    exact Fields.depth_encode ⟨within_required (Nat.zero_le 125), trivial⟩
  | phase1Complete analysis usage =>
    obtain rfl := Option.some.inj hdata
    have hanalysis : (Codec.any.encode analysis).depth ≤ 125 := by
      have hcarried : 2 + analysis.depth ≤ 127 := h
      show analysis.depth ≤ 125
      omega
    have husage : (Wire.usage.encode usage).depth ≤ 125 :=
      Nat.le_trans (Wire.depth_usage usage) (by decide)
    exact Fields.depth_encode ⟨within_required hanalysis, within_defaulted husage, trivial⟩
  | phase2Start => cases hdata
  | phase2Complete contracts transactions usage =>
    obtain rfl := Option.some.inj hdata
    have hcontracts : ((Codec.list Wire.plannedContract).encode contracts).depth ≤ 125 :=
      Codec.depth_list fun c _ => Nat.le_trans (Wire.depth_plannedContract c) (by decide)
    have htransactions : ((Codec.list Wire.transaction).encode transactions).depth ≤ 125 :=
      Codec.depth_list fun t _ => Nat.le_trans (Wire.depth_transaction t) (by decide)
    have husage : (Wire.usage.encode usage).depth ≤ 125 :=
      Nat.le_trans (Wire.depth_usage usage) (by decide)
    exact Fields.depth_encode ⟨within_required hcontracts, within_defaulted htransactions,
      within_defaulted husage, trivial⟩
  | phase3Start attempt =>
    obtain rfl := Option.some.inj hdata
    exact Fields.depth_encode ⟨within_required (Nat.zero_le 125), trivial⟩
  | phase4Start attempt retrying =>
    obtain rfl := Option.some.inj hdata
    have hretrying : ((Codec.list Codec.string).encode retrying).depth ≤ 125 :=
      Nat.le_trans (Wire.depth_strings retrying) (by decide)
    exact Fields.depth_encode
      ⟨within_required (Nat.zero_le 125), within_required hretrying, trivial⟩
  | validation r =>
    obtain rfl := Option.some.inj hdata
    exact Nat.le_trans (Wire.depth_report r) (by decide)
  | artifactReady a =>
    obtain rfl := Option.some.inj hdata
    have hmetadata : ∀ v, a.metadata = some v → v.depth ≤ 124 := by
      intro v hv
      have hcarried : 3 + v.depth ≤ 127 := (h v hv).2
      omega
    exact Fields.depth_encode ⟨within_required (Wire.depth_artifact hmetadata), trivial⟩
  | done r =>
    obtain rfl := Option.some.inj hdata
    have hdeployment : ∀ v, r.deployment = some v → v.depth ≤ 124 := by
      intro v hv
      have hcarried : 3 + v.depth ≤ 127 := (h.1 v hv).2
      omega
    have hartifacts : ∀ a ∈ r.artifacts, ∀ v, a.metadata = some v → v.depth ≤ 122 := by
      intro a ha v hv
      have hcarried : 5 + v.depth ≤ 127 := (h.2 a ha v hv).2
      omega
    exact Fields.depth_encode ⟨within_required (Wire.depth_result hartifacts hdeployment), trivial⟩
  | error message phase detail =>
    obtain rfl := Option.some.inj hdata
    exact Fields.depth_encode ⟨within_required (Nat.zero_le 125),
      within_optional fun _ _ => Nat.zero_le 125, within_optional fun _ _ => Nat.zero_le 125,
      trivial⟩

/-! ## What is read -/

namespace Wire

variable {origin : Origin} {t : Tree} {depth : ℕ}

/-- Optional JSON that was read is not null. -/
lemma read_of_nullable_any {v : Value} (h : (Codec.nullable .any).decode origin t = .ok (some v)) :
    v ≠ .null ∧ t.read = .ok v := by
  obtain ⟨hnull, hread⟩ := Codec.from_of_nullable h
  refine ⟨?_, hread⟩
  rintro rfl
  obtain ⟨start, stop, rfl⟩ := Tree.eq_null_of_read hread
  exact hnull start stop rfl

/-- Optional JSON that was read from a part, or is left out, can be carried. -/
lemma carried_of_from {name : String} {data : Option Value} (hle : depth ≤ depthLimit)
    (h : (∃ t, t.Standing depth ∧ (optional name Codec.any).read origin t = .ok data) ∨
      (optional name Codec.any).absent = some data) : Carried depth data := by
  rcases h with ⟨t, ht, hread⟩ | habsent
  · rintro v rfl
    obtain ⟨hnull, hread⟩ := read_of_nullable_any hread
    exact ⟨hnull, Tree.depth_of_read t ht hle hread⟩
  · obtain rfl := Option.some.inj habsent
    exact fun v hv => absurd hv (by simp)

/-- The metadata of an artifact that was read can be carried. -/
lemma carried_of_artifact {a : Artifact} (ht : t.Standing depth) (hle : depth + 1 ≤ depthLimit)
    (h : artifact.decode origin t = .ok a) : Carried (depth + 1) a.metadata := by
  obtain ⟨⟨name, code, validated, error, role, order, size, metadata, attempt, _⟩, hfrom, rfl⟩ :=
    Codec.from_of_record ht.parts h
  obtain ⟨-, -, -, -, -, -, -, hmetadata, -⟩ := hfrom
  exact carried_of_from hle hmetadata

/-- The deployment data and the metadata of a result that was read can be carried. -/
lemma carried_of_result {r : ConversionResult} (ht : t.Standing depth)
    (hle : depth + 3 ≤ depthLimit) (h : result.decode origin t = .ok r) :
    Carried (depth + 1) r.deployment ∧ ∀ a ∈ r.artifacts, Carried (depth + 3) a.metadata := by
  obtain ⟨⟨id, mode, artifacts, transactions, deployment, attempts, usage, finished, _⟩, hfrom,
    rfl⟩ := Codec.from_of_record ht.parts h
  obtain ⟨-, -, hartifacts, -, hdeployment, -⟩ := hfrom
  refine ⟨carried_of_from (by omega) hdeployment, fun a ha => ?_⟩
  rcases hartifacts with ⟨t, ht, hread⟩ | habsent
  · obtain ⟨t', ht', hread'⟩ := Codec.from_of_list ht.parts hread a ha
    exact carried_of_artifact ht' hle hread'
  · cases habsent

/-- The values of an event's fields come from parts of a text that stand in two containers, or are
the defaults of the fields. -/
def EventFrom (origin : Origin) : Event → Prop
  | .phase1Start id => phase1StartFields.From (Tree.Standing 2) origin (id, ())
  | .phase1Complete analysis usage =>
    phase1CompleteFields.From (Tree.Standing 2) origin (analysis, usage, ())
  | .phase2Start => True
  | .phase2Complete contracts transactions usage =>
    phase2CompleteFields.From (Tree.Standing 2) origin (contracts, transactions, usage, ())
  | .phase3Start attempt => phase3StartFields.From (Tree.Standing 2) origin (attempt, ())
  | .phase4Start attempt retrying =>
    phase4StartFields.From (Tree.Standing 2) origin (attempt, retrying, ())
  | .validation r => ∃ t : Tree, t.Standing 1 ∧ report.decode origin t = .ok r
  | .artifactReady a => artifactReadyFields.From (Tree.Standing 2) origin (a, ())
  | .done r => doneFields.From (Tree.Standing 2) origin (r, ())
  | .error message phase detail =>
    errorFields.From (Tree.Standing 2) origin (message, phase, detail, ())

/-- The named values of an event that was read come from the parts of its content. -/
lemma from_of_eventContent {name : String} {types : List Type} {fields : Fields types}
    {make : Tuple types → Event} {e : Event}
    (h : (eventContent name types fields make).From (Tree.Standing 1) e) :
    ∃ origin tuple, fields.From (Tree.Standing 2) origin tuple ∧ make tuple = e := by
  obtain ⟨origin, t, ht, hread⟩ := h
  obtain ⟨tuple, htuple, hmake⟩ := map_eq_ok.mp hread
  exact ⟨origin, tuple, Fields.from_of_decodeStrict ht.parts htuple, hmake⟩

/-- **An event that was read has its values from the parts of its text.** -/
theorem exists_eventFrom {e : Event} (ht : t.Standing 0) (h : event.decode origin t = .ok e) :
    ∃ origin, EventFrom origin e := by
  obtain ⟨name, payload, hkind, hfrom⟩ := Tagged.Layout.from_of_decode ht.parts h
  simp only [eventLayout, eventKinds, List.mem_cons, Prod.mk.injEq, List.not_mem_nil,
    or_false] at hkind
  -- the kinds in their order
  rcases hkind with ⟨-, rfl⟩ | ⟨-, rfl⟩ | ⟨-, rfl⟩ | ⟨-, rfl⟩ | ⟨-, rfl⟩ | ⟨-, rfl⟩ | ⟨-, rfl⟩ |
    ⟨-, rfl⟩ | ⟨-, rfl⟩ | ⟨-, rfl⟩
  case inr.inr.inl =>
    obtain rfl : Event.phase2Start = e := hfrom
    exact ⟨origin, trivial⟩
  case inr.inr.inr.inr.inr.inr.inl =>
    obtain ⟨origin, t, ht, hread⟩ := hfrom
    obtain ⟨r, hr, rfl⟩ := map_eq_ok.mp hread
    exact ⟨origin, t, ht, hr⟩
  all_goals
    obtain ⟨origin, tuple, htuple, rfl⟩ := from_of_eventContent hfrom
    exact ⟨origin, htuple⟩

/-- **Whatever tree of a text an event is read from, it is portable.** -/
theorem portable_of_decode {e : Event} (ht : t.Standing 0) (h : event.decode origin t = .ok e) :
    e.Portable := by
  obtain ⟨origin, hfrom⟩ := exists_eventFrom ht h
  cases e with
  | phase1Complete analysis usage =>
    obtain ⟨⟨t, ht, hread⟩ | habsent, -⟩ := hfrom
    · exact Tree.depth_of_read t ht (by decide) hread
    · cases habsent
  | artifactReady a =>
    obtain ⟨⟨t, ht, hread⟩ | habsent, -⟩ := hfrom
    · exact carried_of_artifact ht (by decide) hread
    · cases habsent
  | done r =>
    obtain ⟨⟨t, ht, hread⟩ | habsent, -⟩ := hfrom
    · exact carried_of_result ht (by decide) hread
    · cases habsent
  | _ => trivial

end Wire

/-- **Whatever line an event is read from, it is portable.** -/
theorem Event.portable_of_ofLine {line : String} {e : Event} (h : ofLine line = .ok e) :
    e.Portable := by
  obtain ⟨e', he, h⟩ := bind_eq_ok.mp h
  obtain ⟨-, -, h⟩ := bind_eq_ok.mp h
  obtain rfl := Except.ok.inj h
  exact Wire.portable_of_decode (Document.standing_parse _) he

end ContractConversion
