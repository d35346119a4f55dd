import ContractConversion.Proofs.Editing
import ContractConversion.Proofs.Session.Orphan
import ContractConversion.Proofs.Session.Reports

/-!
# An answer is taken in as a whole

Taking in an answer writes up to four fields of the state, one after the other, and may break off in
between: the answer may not be readable, and its fixes may not fit the session. Still it changes all
of them or none, and what it leaves is a well-formed state again
(`SessionState.applyInPlace_intake`).

`SessionState.WellFormedAt` is the invariant from one attempt to the next. It says of the artifacts
what the merge relies on, and that an accepted one has its size and no error. A repair keeps the
accepted artifacts and renews all others, so that the validator is due for exactly these; when it
has judged them, every artifact is accepted or has its error.
-/

namespace ContractConversion

open Json (Value)

/-! ## Answers that cannot be read -/

namespace Generation

lemma malformed_of_raw {data : Value} {fault : OracleFault} (h : raw data = .error fault) :
    ∃ reason, fault = .malformed reason := by
  obtain ⟨cause, -, rfl⟩ := mapError_eq_error.mp h
  exact ⟨_, rfl⟩

lemma malformed_of_nameFault? {seen : List String} {contracts : List GeneratedContract}
    {fault : OracleFault} (h : nameFault? seen contracts = some fault) :
    ∃ reason, fault = .malformed reason := by
  induction contracts generalizing seen with
  | nil => cases h
  | cons c rest ih =>
    rw [nameFault?] at h
    split at h
    · exact ⟨_, (Option.some.inj h).symm⟩
    · split at h
      · exact ⟨_, (Option.some.inj h).symm⟩
      · exact ih h

lemma malformed_of_classify {data : Value} {fault : OracleFault}
    (h : classify data = .error fault) : ∃ reason, fault = .malformed reason := by
  rcases bind_eq_error.mp h with h | ⟨r, -, h⟩
  · exact malformed_of_raw h
  · split at h
    · split at h
      · next hname =>
        obtain rfl := Except.error.inj h
        exact malformed_of_nameFault? hname
      · cases h
    · cases h
    · exact ⟨_, (Except.error.inj h).symm⟩

lemma malformed_of_parseAs {mode : Mode} {data : Value} {fault : OracleFault}
    (h : parseAs mode data = .error fault) : ∃ reason, fault = .malformed reason := by
  rcases bind_eq_error.mp h with h | ⟨r, -, h⟩
  · exact malformed_of_raw h
  · cases mode with
    | multi =>
      dsimp only at h
      split at h
      · cases h
      · exact ⟨_, (Except.error.inj h).symm⟩
    | single =>
      dsimp only at h
      split at h
      · cases h
      · cases h
      · exact ⟨_, (Except.error.inj h).symm⟩

end Generation

namespace SessionState

/-! ## The procedure -/

/-- Takes in the answer to the current attempt where the state stands, one field after the other. A
fresh answer fixes the mode, the order and the deployment. -/
def applyInPlace (data : Value) (fresh : Bool) : Editing AttemptFault SessionState Unit := do
  let s ← get
  let attempt := s.attempt
  let singleName := s.plan.singleName
  if fresh then
    let output ← ofExcept ((Generation.classify data).mapError AttemptFault.oracle)
    let artifacts := output.artifacts attempt singleName
    modify fun s => { s with mode := some output.mode }
    modify fun s => { s with order := artifacts.map (·.name) }
    modify fun s => { s with artifacts }
    modify fun s => { s with deployment := output.deployment }
  else
    let mode := s.mode.getD .single
    let output ← ofExcept ((Generation.parseAs mode data).mapError AttemptFault.oracle)
    let batch := output.artifacts attempt singleName
    let s ← get
    let artifacts ← ofExcept ((Repair.merge s.accepted batch s.order).mapError AttemptFault.merge)
    modify fun s => { s with artifacts }

/-- The answer is fresh as long as the mode is not fixed. Nothing is written before all that can
fail has gone well. -/
lemma applyInPlace_carriesOut (s : SessionState) (data : Value) :
    Editing.CarriesOut (applyInPlace data s.mode.isNone) (·.applyOutput data) s := by
  rw [Editing.CarriesOut, applyInPlace]
  cases hmode : s.mode with
  | none =>
    cases hclassify : (Generation.classify data).mapError AttemptFault.oracle with
    | error fault => simp [applyOutput, hmode, hclassify]
    | ok output => simp [applyOutput, hmode, hclassify]
  | some mode =>
    cases hparse : (Generation.parseAs mode data).mapError AttemptFault.oracle with
    | error fault => simp [applyOutput, hmode, hparse, error_bind]
    | ok output =>
      cases hmerge : (Repair.merge s.accepted (output.artifacts s.attempt s.plan.singleName)
          s.order).mapError AttemptFault.merge with
      | error fault => simp [applyOutput, hmode, hparse, hmerge, ok_bind]
      | ok artifacts => simp [applyOutput, hmode, hparse, hmerge, ok_bind]

/-! ## The invariant -/

/-- The state between two attempts, `n` of which have been made. Before the mode is fixed there is
nothing; from then on the artifacts are those of the order, none is younger than the last attempt,
and an accepted one has its size and no error. -/
structure WellFormedAt (s : SessionState) (n : ℕ) : Prop extends WellFormed s where
  mode_eq_none : s.mode = none ↔ s.order = [] ∧ s.artifacts = []
  attempt_le : ∀ a ∈ s.artifacts, a.attempt ≤ n
  accepted : ∀ a ∈ s.artifacts, a.validated = true → a.validationError = none ∧ a.size.isSome = true

/-- What an answer that is taken in does to the state. -/
structure Renews (s s' : SessionState) : Prop where
  /-- An accepted artifact stands where it stood, as it was. -/
  accepted : ∀ a ∈ s.artifacts, a.validated = true → s'.artifacts[a.order]? = some a
  /-- Every other one is new. -/
  others : ∀ a ∈ s'.artifacts, a ∈ s.artifacts ∧ a.validated = true ∨
    a.validated = false ∧ a.attempt = s.attempt
  /-- What the first answer fixed stays. -/
  fixed : s.mode ≠ none → s'.mode = s.mode ∧ s'.order = s.order ∧ s'.deployment = s.deployment
  /-- The rest of the state has no part in it. -/
  frame : s' = { s with
    mode := s'.mode
    order := s'.order
    artifacts := s'.artifacts
    deployment := s'.deployment }

section

variable {s s' : SessionState} {data : Value} {n : ℕ}

/-- An answer is refused because it cannot be read, or because its fixes cannot be merged. -/
lemma fault_of_applyOutput {fault : AttemptFault} (h : s.applyOutput data = .error fault) :
    (∃ reason, fault = .oracle (.malformed reason)) ∨ ∃ cause, fault = .merge cause := by
  cases hmode : s.mode with
  | none =>
    rw [applyOutput, hmode] at h
    rcases bind_eq_error.mp h with h | ⟨output, -, h⟩
    · obtain ⟨cause, hcause, rfl⟩ := mapError_eq_error.mp h
      obtain ⟨reason, rfl⟩ := Generation.malformed_of_classify hcause
      exact .inl ⟨reason, rfl⟩
    · cases h
  | some mode =>
    rw [applyOutput, hmode] at h
    rcases bind_eq_error.mp h with h | ⟨output, -, h⟩
    · obtain ⟨cause, hcause, rfl⟩ := mapError_eq_error.mp h
      obtain ⟨reason, rfl⟩ := Generation.malformed_of_parseAs hcause
      exact .inl ⟨reason, rfl⟩
    · rcases bind_eq_error.mp h with h | ⟨artifacts, -, h⟩
      · obtain ⟨cause, -, rfl⟩ := mapError_eq_error.mp h
        exact .inr ⟨cause, rfl⟩
      · cases h

/-- What an answer that is taken in writes: all that the first one fixes, and later the artifacts
only. -/
lemma written_of_applyOutput (h : s.applyOutput data = .ok s') :
    (s.mode = none ∧ ∃ output, Generation.classify data = .ok output ∧
      s' = { s with
        mode := some output.mode
        order := output.names s.plan.singleName
        artifacts := output.artifacts s.attempt s.plan.singleName
        deployment := output.deployment }) ∨
      s.mode ≠ none ∧ s' = { s with artifacts := s'.artifacts } := by
  cases hmode : s.mode with
  | none =>
    rw [applyOutput, hmode] at h
    obtain ⟨output, houtput, h⟩ := bind_eq_ok.mp h
    obtain rfl := Except.ok.inj h
    refine .inl ⟨rfl, output, ok_of_mapError houtput, ?_⟩
    rw [← output.names_artifacts s.attempt s.plan.singleName]
    rfl
  | some mode =>
    rw [applyOutput, hmode] at h
    obtain ⟨output, -, h⟩ := bind_eq_ok.mp h
    obtain ⟨merged, -, h⟩ := bind_eq_ok.mp h
    obtain rfl := Except.ok.inj h
    exact .inr ⟨by simp, rfl⟩

lemma renews_of_applyOutput (hs : s.WellFormed) (h : s.applyOutput data = .ok s') :
    s.Renews s' := by
  have htakes := applyOutput_spec hs h
  refine ⟨fun a ha hvalid => ?_, fun a ha => ?_, fun hmode => ?_, ?_⟩
  · have hkept := (htakes.accepted a).mpr (mem_accepted.mpr ⟨ha, hvalid⟩)
    obtain ⟨i, hi⟩ := List.mem_iff_getElem?.mp (mem_accepted.mp hkept).1
    rw [htakes.wellFormed.place i a hi, hi]
  · cases hvalid : a.validated with
    | true =>
      have hbefore := (htakes.accepted a).mp (mem_accepted.mpr ⟨ha, hvalid⟩)
      exact .inl ⟨(mem_accepted.mp hbefore).1, rfl⟩
    | false => exact .inr ⟨rfl, (htakes.others a ha hvalid).1⟩
  · rcases written_of_applyOutput h with ⟨hnone, -⟩ | ⟨-, heq⟩
    · exact absurd hnone hmode
    · rw [heq]
      exact ⟨rfl, rfl, rfl⟩
  · rcases written_of_applyOutput h with ⟨-, output, -, heq⟩ | ⟨-, heq⟩
    · rw [heq]
    · rw [heq]

lemma WellFormedAt.of_applyOutput (hs : s.WellFormedAt n) (hattempt : s.attempt = n + 1)
    (h : s.applyOutput data = .ok s') : s'.WellFormedAt (n + 1) := by
  have hrenews := renews_of_applyOutput hs.toWellFormed h
  have hnew := (applyOutput_spec hs.toWellFormed h).wellFormed
  refine ⟨hnew, ?_, fun a ha => ?_, fun a ha hvalid => ?_⟩
  · -- the mode is fixed, so there have to be names
    have hmode : s'.mode ≠ none ∧ s'.order ≠ [] := by
      rcases written_of_applyOutput h with ⟨-, output, hclassify, rfl⟩ | ⟨hfixed, heq⟩
      · exact ⟨Option.some_ne_none _, (Generation.names_of_classify hclassify _).1⟩
      · rw [heq]
        refine ⟨hfixed, fun horder => hfixed (hs.mode_eq_none.mpr ⟨horder, ?_⟩)⟩
        exact List.map_eq_nil_iff.mp (hs.names.trans horder)
    exact ⟨fun hnone => absurd hnone hmode.1, fun hempty => absurd hempty.1 hmode.2⟩
  · rcases hrenews.others a ha with ⟨hold, -⟩ | ⟨-, hthis⟩
    · exact Nat.le_succ_of_le (hs.attempt_le a hold)
    · rw [hthis, hattempt]
  · rcases hrenews.others a ha with ⟨hold, -⟩ | ⟨hrefused, -⟩
    · exact hs.accepted a hold hvalid
    · exact absurd hvalid (by simp [hrefused])

end

/-! ## What the validator leaves -/

/-- What becomes of an artifact when an attempt is validated: one that the validator is due for is
judged, and the others stay as they are. -/
def Judges (s : SessionState) (a b : Artifact) : Prop :=
  s.IsDue a ∧ (∃ answer, b = a.judged answer) ∨ ¬s.IsDue a ∧ b = a

end SessionState

namespace Course

/-- Whatever the validator answers, the course goes on with `next` from a state of the property,
unless it is cancelled where it learns that the reader is gone. -/
inductive ComesTo (next : SessionState → Course) (P : SessionState → Prop) : Course → Prop
  | there {s : SessionState} (h : P s) : ComesTo next P (next s)
  | look {rest : Bool → Course} (hgone : (rest true).EndsWith .cancelled)
      (hthere : ComesTo next P (rest false)) : ComesTo next P (.look rest)
  | validate {code : String} {rest : Except OracleFault Validation → Course}
      (hall : ∀ answer, ComesTo next P (rest answer)) : ComesTo next P (.validate code rest)

lemma ComesTo.mono {next : SessionState → Course} {P Q : SessionState → Prop} {rest : Course}
    (h : rest.ComesTo next P) (hPQ : ∀ s, P s → Q s) : rest.ComesTo next Q := by
  induction h with
  | there h => exact .there (hPQ _ h)
  | look hgone _ ih => exact .look hgone ih
  | validate _ ih => exact .validate ih

/-- **Artifact by artifact**, the loop judges what is due; `checked` are the artifacts behind it,
the last first. -/
lemma validateFrom_comesTo (s : SessionState) (checked todo : List Artifact)
    (next : SessionState → Course) :
    (validateFrom s checked todo next).ComesTo next fun s' => ∃ judged,
      List.Forall₂ s.Judges todo judged ∧
        s' = { s with artifacts := checked.reverse ++ judged } := by
  induction todo generalizing checked with
  | nil => exact .there ⟨[], .nil, by rw [List.append_nil]⟩
  | cons a rest ih =>
    -- the artifact moves behind the loop, judged or as it is
    have hmove : ∀ b, s.Judges a b → (validateFrom s (b :: checked) rest next).ComesTo next
        fun s' => ∃ judged, List.Forall₂ s.Judges (a :: rest) judged ∧
          s' = { s with artifacts := checked.reverse ++ judged } := fun b hb => by
      refine (ih (b :: checked)).mono fun s' hs' => ?_
      obtain ⟨judged, hjudged, rfl⟩ := hs'
      exact ⟨b :: judged, .cons hb hjudged, by rw [List.reverse_cons, List.append_assoc]; rfl⟩
    rw [validateFrom]
    split
    · next hdue =>
      exact .look (cancel_endsWith s) (.validate fun answer => hmove _ (.inl ⟨hdue, answer, rfl⟩))
    · next hdue => exact hmove a (.inr ⟨hdue, rfl⟩)

end Course

/-- The validator's answer is written down: the size of what it accepts, or its objection. -/
lemma Artifact.judged_spec (a : Artifact) (answer : Except OracleFault Validation) :
    (a.judged answer).validated = true ∧ (a.judged answer).validationError = none ∧
        (a.judged answer).size.isSome = true ∨
      (a.judged answer).validated = false ∧ (a.judged answer).validationError.isSome = true := by
  rcases answer with fault | ⟨size, metadata⟩ | error
  · exact .inr ⟨rfl, rfl⟩
  · exact .inl ⟨rfl, rfl, rfl⟩
  · exact .inr ⟨rfl, rfl⟩

namespace SessionState

section

variable {s : SessionState} {artifacts judged : List Artifact} {n : ℕ}

lemma Judges.keeps {a b : Artifact} (h : s.Judges a b) :
    b.name = a.name ∧ b.order = a.order ∧ b.attempt = a.attempt := by
  rcases h with ⟨-, answer, rfl⟩ | ⟨-, rfl⟩
  · exact ⟨a.judged_name answer, a.judged_order answer, a.judged_attempt answer⟩
  · exact ⟨rfl, rfl, rfl⟩

lemma names_judged (h : List.Forall₂ s.Judges artifacts judged) :
    Repair.names judged = Repair.names artifacts := by
  induction h with
  | nil => rfl
  | cons hab _ ih => rw [Repair.names_cons, Repair.names_cons, hab.keeps.1, ih]

/-- An artifact that was gone through stood in the same place before. -/
lemma exists_judges (h : List.Forall₂ s.Judges artifacts judged) {i : ℕ} {b : Artifact}
    (hb : judged[i]? = some b) : ∃ a, artifacts[i]? = some a ∧ s.Judges a b := by
  obtain ⟨hi, rfl⟩ := List.getElem?_eq_some_iff.mp hb
  have hi' : i < artifacts.length := h.length_eq ▸ hi
  exact ⟨artifacts[i], List.getElem?_eq_getElem hi', h.get hi' hi⟩

lemma exists_judges_of_mem (h : List.Forall₂ s.Judges artifacts judged) {b : Artifact}
    (hb : b ∈ judged) : ∃ a ∈ artifacts, s.Judges a b := by
  obtain ⟨i, hi⟩ := List.mem_iff_getElem?.mp hb
  obtain ⟨a, ha, hab⟩ := exists_judges h hi
  exact ⟨a, List.mem_of_getElem? ha, hab⟩

lemma WellFormedAt.of_judges (hs : s.WellFormedAt n)
    (h : List.Forall₂ s.Judges s.artifacts judged) :
    ({ s with artifacts := judged } : SessionState).WellFormedAt n where
  fresh hmode := by
    have hnone := hs.fresh hmode
    rw [hnone] at h
    exact List.forall₂_nil_left_iff.mp h
  names := (names_judged h).trans hs.names
  nodup := hs.nodup
  place i b hb := by
    obtain ⟨a, ha, hab⟩ := exists_judges h hb
    rw [hab.keeps.2.1]
    exact hs.place i a ha
  mode_eq_none := by
    have hnil : judged = [] ↔ s.artifacts = [] := by
      rw [← List.length_eq_zero_iff, ← h.length_eq, List.length_eq_zero_iff]
    rw [hnil]
    exact hs.mode_eq_none
  attempt_le b hb := by
    obtain ⟨a, ha, hab⟩ := exists_judges_of_mem h hb
    rw [hab.keeps.2.2]
    exact hs.attempt_le a ha
  accepted b hb hvalid := by
    obtain ⟨a, ha, ⟨-, answer, rfl⟩ | ⟨-, rfl⟩⟩ := exists_judges_of_mem h hb
    · rcases a.judged_spec answer with ⟨-, hgood⟩ | ⟨hrefused, -⟩
      · exact hgood
      · exact absurd hvalid (by simp [hrefused])
    · exact hs.accepted b ha hvalid

/-- Where the validator is due for all that is not accepted, nothing is left without a word. -/
lemma settled_of_judged (hdue : ∀ a ∈ artifacts, a.validated = false → s.IsDue a)
    (h : List.Forall₂ s.Judges artifacts judged) :
    ∀ b ∈ judged, b.validated = true ∨ b.validationError.isSome = true := by
  intro b hb
  obtain ⟨a, ha, ⟨-, answer, rfl⟩ | ⟨hnot, rfl⟩⟩ := exists_judges_of_mem h hb
  · rcases a.judged_spec answer with ⟨hvalid, -⟩ | ⟨-, herror⟩
    · exact .inl hvalid
    · exact .inr herror
  · exact .inl ((Bool.eq_false_or_eq_true b.validated).resolve_right fun hrefused =>
      hnot (hdue b ha hrefused))

end

/-! ## All or nothing -/

/-- **An answer is taken in as a whole, and the state stays well-formed.** Let a state be
well-formed after `n` attempts, with the next one started. If taking in an answer breaks off, the
answer cannot be read or its fixes cannot be merged, and the state is what it was. If it goes well,
the state is well-formed after `n + 1` attempts, the accepted artifacts are what they were, all
others are new, and what the first answer fixed stays. The validation that follows, whatever the
validator answers, comes to its end unless the reader is gone, keeps the state well-formed and
leaves each artifact accepted or with its error. The outcome is that of `applyOutput`. -/
theorem applyInPlace_intake {s : SessionState} {n : ℕ} (hs : s.WellFormedAt n)
    (hattempt : s.attempt = n + 1) (data : Value) :
    match Editing.perform (applyInPlace data s.mode.isNone) s with
    | (.error fault, s') =>
      s' = s ∧ s.applyOutput data = .error fault ∧
        ((∃ reason, fault = .oracle (.malformed reason)) ∨ ∃ cause, fault = .merge cause)
    | (.ok (), s') =>
      s.applyOutput data = .ok s' ∧ s'.WellFormedAt (n + 1) ∧ s.Renews s' ∧
        ∀ next, (Course.validateFrom s' [] s'.artifacts next).ComesTo next fun s'' =>
          s''.WellFormedAt (n + 1) ∧
            ∀ a ∈ s''.artifacts, a.validated = true ∨ a.validationError.isSome = true := by
  have hperform := applyInPlace_carriesOut s data
  cases h : s.applyOutput data with
  | error fault =>
    rw [hperform.of_error h]
    exact ⟨rfl, rfl, fault_of_applyOutput h⟩
  | ok s' =>
    rw [hperform.of_ok h]
    have hnew := hs.of_applyOutput hattempt h
    have hrenews := renews_of_applyOutput hs.toWellFormed h
    refine ⟨rfl, hnew, hrenews, fun next => ?_⟩
    refine (Course.validateFrom_comesTo s' [] s'.artifacts next).mono fun s'' hs'' => ?_
    obtain ⟨judged, hjudged, rfl⟩ := hs''
    have htakes := applyOutput_spec hs.toWellFormed h
    have hdue : ∀ a ∈ s'.artifacts, a.validated = false → s'.IsDue a := fun a ha hrefused =>
      ⟨(htakes.others a ha hrefused).1.trans htakes.attempt.symm, hrefused⟩
    exact ⟨hnew.of_judges hjudged, settled_of_judged hdue hjudged⟩

/-- A session in its second attempt: the vault is accepted, and the sale is to be repaired. -/
def halfDone : SessionState where
  id := .greatest
  attempt := 2
  mode := some .multi
  order := ["Vault", "TokenSale"]
  artifacts :=
    [{ name := "Vault", code := "vault", validated := true, size := some 5, attempt := 1 },
      { name := "TokenSale", code := "faulty", validationError := some "no sale", order := 1,
        attempt := 1 }]

lemma halfDone_wellFormedAt : halfDone.WellFormedAt 1 where
  fresh h := by cases h
  names := rfl
  nodup := by decide
  place i a h := by
    match i with
    | 0 =>
      cases h
      rfl
    | 1 =>
      cases h
      rfl
  mode_eq_none := by decide
  attempt_le := by decide
  accepted := by decide

/-- The sale is repaired under another spelling of its name; and two answers that are refused, one
that cannot be read and one without a fix. -/
theorem applyInPlace_intake_halfDone :
    let perform (data : Value) :=
      Editing.perform (applyInPlace data halfDone.mode.isNone) halfDone
    let repair : Value :=
      .obj [("contracts", .arr [.obj [("code", .str "sale"), ("name", .str "token_sale")]])]
    let repaired : SessionState := { halfDone with
      artifacts :=
        [{ name := "Vault", code := "vault", validated := true, size := some 5, attempt := 1 },
          { name := "TokenSale", code := "sale", order := 1, attempt := 2 }] }
    halfDone.WellFormedAt 1 ∧ halfDone.attempt = 1 + 1 ∧
      (perform repair = (.ok (), repaired) ∧ repaired.WellFormedAt 2 ∧ halfDone.Renews repaired ∧
        ∀ next, (Course.validateFrom repaired [] repaired.artifacts next).ComesTo next fun s =>
          s.WellFormedAt 2 ∧
            ∀ a ∈ s.artifacts, a.validated = true ∨ a.validationError.isSome = true) ∧
      perform (.obj []) =
        (.error (.oracle (.malformed "repair output is missing contracts")), halfDone) ∧
      perform (.obj [("contracts", .arr [])]) = (.error (.merge (.missing "TokenSale")), halfDone) ∧
      halfDone.applyOutput (.obj [("contracts", .arr [])]) =
        .error (.merge (.missing "TokenSale")) := by
  intro perform repair repaired
  have hrepair : perform repair = (.ok (), repaired) := rfl
  have hmissing : perform (.obj [("contracts", .arr [])]) =
      (.error (.merge (.missing "TokenSale")), halfDone) := rfl
  have hok := applyInPlace_intake halfDone_wellFormedAt rfl repair
  have hrefused := applyInPlace_intake halfDone_wellFormedAt rfl (.obj [("contracts", .arr [])])
  rw [show Editing.perform (applyInPlace repair halfDone.mode.isNone) halfDone = _ from hrepair]
    at hok
  rw [show Editing.perform (applyInPlace _ halfDone.mode.isNone) halfDone = _ from hmissing]
    at hrefused
  exact ⟨halfDone_wellFormedAt, rfl, ⟨hrepair, hok.2⟩, rfl, hmissing, hrefused.2.1⟩

end SessionState

end ContractConversion
