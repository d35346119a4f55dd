import ContractConversion.Proofs.Session.Reports

/-!
# Answers in both readings

A first answer fixes the mode of its session, and a repair is read in that mode. Both readings start
from the same members of the answer (`Generation.raw`), so an answer that does not match the schema
is refused by both, in the same words. What the first reading accepts is read alike as a repair in
its own mode, and its contracts have names to be known by (`Generation.parseAs_of_classify`).
-/

namespace ContractConversion.Generation

open Json (Value)

/-- The refusal of an answer that does not match the schema. -/
def mismatch (reason : String) : OracleFault :=
  .malformed ("generation output does not match schema: " ++ reason)

lemma mismatch_injective {a b : String} (h : mismatch a = mismatch b) : a = b := by
  simpa [mismatch, ← String.toList_inj] using h

/-! ## Answers without members -/

section

variable {data : Value} {fault : OracleFault}

/-- An answer has no members just if it does not match the schema. -/
lemma raw_eq_error : raw data = .error fault ↔
    ∃ cause, Wire.rawGeneration.decode .value (.ofValue data) = .error cause ∧
      mismatch cause.message = fault :=
  mapError_eq_error

lemma classify_of_raw (h : raw data = .error fault) : classify data = .error fault := by
  rw [classify, h]
  rfl

lemma parseAs_of_raw (h : raw data = .error fault) (mode : Mode) :
    parseAs mode data = .error fault := by
  rw [parseAs, h]
  rfl

/-- The objection to a name is another one. -/
lemma nameFault?_ne_mismatch (seen : List String) (contracts : List GeneratedContract)
    (reason : String) : nameFault? seen contracts ≠ some (mismatch reason) := by
  induction contracts generalizing seen with
  | nil => simp [nameFault?]
  | cons c rest ih =>
    rw [nameFault?]
    split
    · simp [mismatch, ← String.toList_inj]
    · split
      · simp [mismatch, ← String.toList_inj]
      · exact ih _

/-- **The first reading says that an answer does not match the schema** only of one without
members. -/
lemma raw_of_classify {reason : String} (h : classify data = .error (mismatch reason)) :
    raw data = .error (mismatch reason) := by
  rcases bind_eq_error.mp h with hraw | ⟨r, -, h⟩
  · exact hraw
  · split at h
    · split at h
      next hfault =>
        obtain rfl := Except.error.inj h
        exact absurd hfault (nameFault?_ne_mismatch _ _ reason)
      next => cases h
    · cases h
    · have hwords := OracleFault.malformed.inj (Except.error.inj h)
      simp [← String.toList_inj] at hwords

end

/-! ## Answers that the first reading accepts -/

/-- Contracts without an objection have names that are not blank. -/
lemma allBlank_of_nameFault? {seen : List String} {contracts : List GeneratedContract}
    (h : nameFault? seen contracts = none) : ∀ c ∈ contracts, Text.allBlank c.name = false := by
  induction contracts generalizing seen with
  | nil => exact fun c hc => absurd hc List.not_mem_nil
  | cons c rest ih =>
    rw [nameFault?] at h
    split at h
    · cases h
    next hblank =>
    split at h
    · cases h
    · exact List.forall_mem_cons.mpr ⟨Bool.eq_false_iff.mpr hblank, ih h⟩

section

variable {data : Value} {output : Generation}

/-- **The repair reading goes on from the first one** in the mode that it fixes. -/
lemma parseAs_mode (h : classify data = .ok output) : parseAs output.mode data = .ok output := by
  obtain ⟨r, hraw, ⟨code, rfl, hcode, -⟩ | ⟨contracts, rfl, hcontracts, -⟩⟩ := classify_ok h
  · rw [mode, parseAs, hraw]
    simp only [bind, Except.bind, hcode]
    rfl
  · rw [mode, parseAs, hraw]
    simp only [bind, Except.bind, hcontracts]
    rfl

/-- The contracts of a first answer have distinct names that are not blank. -/
lemma contracts_of_classify {contracts : List GeneratedContract} {deployment : Option Value}
    (h : classify data = .ok (.multi contracts deployment)) :
    contracts ≠ [] ∧ (contracts.map (·.name)).Nodup ∧
      ∀ c ∈ contracts, Text.allBlank c.name = false := by
  obtain ⟨hnonempty, hnodup⟩ := names_of_classify h ""
  obtain ⟨r, -, ⟨code, hcode, -⟩ | ⟨found, heq, -, hnames⟩⟩ := classify_ok h
  · cases hcode
  · obtain ⟨rfl, -⟩ := multi.inj heq
    exact ⟨fun hnil => hnonempty (hnil ▸ rfl), hnodup, allBlank_of_nameFault? hnames⟩

end

/-- **Both readings agree**, whatever the answer. One that the first reading accepts gives the same
artifacts and the same deployment as a repair in its own mode, and if it holds contracts, these are
not none and have distinct names that are not blank. The first reading says that an answer does not
match the schema just if it does not, and then the repair reading says the same in both modes. -/
theorem parseAs_of_classify (data : Value) :
    (∀ output, classify data = .ok output → parseAs output.mode data = .ok output) ∧
    (∀ contracts deployment, classify data = .ok (.multi contracts deployment) →
      contracts ≠ [] ∧ (contracts.map (·.name)).Nodup ∧
        ∀ c ∈ contracts, Text.allBlank c.name = false) ∧
    (∀ reason, classify data = .error (mismatch reason) ↔
      ∃ cause, Wire.rawGeneration.decode .value (.ofValue data) = .error cause ∧
        cause.message = reason) ∧
    (∀ reason, classify data = .error (mismatch reason) →
      ∀ mode, parseAs mode data = .error (mismatch reason)) := by
  refine ⟨fun output h => parseAs_mode h, fun contracts deployment h => contracts_of_classify h,
    fun reason => ⟨fun h => ?_, ?_⟩, fun reason h => parseAs_of_raw (raw_of_classify h)⟩
  · obtain ⟨cause, hcause, hwords⟩ := raw_eq_error.mp (raw_of_classify h)
    exact ⟨cause, hcause, mismatch_injective hwords⟩
  · rintro ⟨cause, hcause, rfl⟩
    exact classify_of_raw (raw_eq_error.mpr ⟨cause, hcause, rfl⟩)

/-- An answer of both shapes counts for its contracts, and one of which a contract has no code is
refused. -/
theorem parseAs_of_classify_both_shapes :
    let token : Value := .obj [("code", .str "ledger x;"), ("name", .str "Token")]
    let vault : Value := .obj [("code", .str "ledger y;"), ("name", .str "Vault")]
    let both : Value := .obj [("code", .str "unused"), ("contracts", .arr [token, vault]),
      ("deployment", .arr [.str "Token"])]
    let damaged : Value := .obj [("contracts", .arr [token, .obj [("name", .str "Vault")]])]
    let contracts : List GeneratedContract :=
      [⟨"Token", "ledger x;", none⟩, ⟨"Vault", "ledger y;", none⟩]
    let output : Generation := .multi contracts (some (.arr [.str "Token"]))
    (classify both = .ok output ∧ parseAs .multi both = .ok output) ∧
      ((contracts.map (·.name)).Nodup ∧ ∀ c ∈ contracts, Text.allBlank c.name = false) ∧
      classify damaged = .error (mismatch "missing field `code`") ∧
      ∀ mode, parseAs mode damaged = .error (mismatch "missing field `code`") := by
  intro token vault both damaged contracts output
  have hboth : classify both = .ok output := by decide
  have hdamaged : classify damaged = .error (mismatch "missing field `code`") := by decide
  exact ⟨⟨hboth, (parseAs_of_classify both).1 output hboth⟩,
    ((parseAs_of_classify both).2.1 contracts _ hboth).2, hdamaged,
    (parseAs_of_classify damaged).2.2.2 _ hdamaged⟩

end ContractConversion.Generation
