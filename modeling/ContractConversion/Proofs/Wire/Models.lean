import ContractConversion.Proofs.Json.Record
import ContractConversion.Proofs.Time.Instant
import ContractConversion.Proofs.Uuid
import ContractConversion.Wire.Models

/-!
# Records are read back

`Fits` says of a record that it can be carried by its written form: counts fit their members,
embedded JSON has integers only and is in normal form, and an optional member with embedded JSON is
not null, for null is read as no value. A record that fits is read back from what is written.
-/

namespace ContractConversion

open Json

/-! ## What can be written -/

/-- Embedded JSON that is read as it was written. -/
structure Json.Value.Fits (v : Value) : Prop where
  normal : v.Normal
  integral : v.Integral

/-- Optional embedded JSON, which must not be null. -/
def OptionalFits (data : Option Value) : Prop :=
  ∀ v, data = some v → v.Fits ∧ v ≠ .null

structure Artifact.Fits (a : Artifact) : Prop where
  order : a.order < 2 ^ 64
  size : ∀ n, a.size = some n → n < 2 ^ 64
  metadata : OptionalFits a.metadata
  attempt : a.attempt < 2 ^ 32

structure Report.Fits (r : Report) : Prop where
  attempt : r.attempt < 2 ^ 32
  artifacts : ∀ s ∈ r.artifacts, s.attempt < 2 ^ 32
  validCount : r.validCount < 2 ^ 64
  failedCount : r.failedCount < 2 ^ 64

structure ConversionResult.Fits (r : ConversionResult) : Prop where
  artifacts : ∀ a ∈ r.artifacts, a.Fits
  deployment : OptionalFits r.deployment
  attempts : r.attempts < 2 ^ 32
  finishedAt : r.finishedAt.Valid

namespace Wire

open Codec Field

/-! ## Simple members -/

lemma reads_mode (m : Mode) : mode.Reads m :=
  reads_named (by cases m <;> rfl)

lemma reads_uuid (id : Uuid) : uuid.Reads id :=
  reads_written (by rw [Uuid.parse_format]; rfl)

lemma reads_instant {t : Time.Instant} (h : t.Valid) : instant.Reads t :=
  reads_written (by rw [Time.Instant.parse_format h]; rfl)

lemma reads_u8 {n : ℕ} (h : n < 2 ^ 8) : u8.Reads n :=
  reads_natural (by decide) h _

lemma reads_u32 {n : ℕ} (h : n < 2 ^ 32) : u32.Reads n :=
  reads_natural (by decide) h _

lemma reads_u64 {n : ℕ} (h : n < 2 ^ 64) : u64.Reads n :=
  reads_natural (by decide) h _

lemma reads_size {n : ℕ} (h : n < 2 ^ 64) : size.Reads n :=
  reads_natural (by decide) h _

/-- An optional text. -/
lemma reads_optional_string {name : String} (s : Option String) :
    (optional name string).Reads s :=
  reads_optional fun t _ => ⟨reads_string t, by simp [string]⟩

/-- Optional embedded JSON. -/
lemma reads_optional_any {name : String} {data : Option Value} (h : OptionalFits data) :
    (optional name any).Reads data :=
  reads_optional fun v hv => ⟨reads_any (h v hv).1.normal (h v hv).1.integral, (h v hv).2⟩

/-! ## Records -/

lemma reads_usage (u : Usage) : usage.Reads u :=
  reads_record (by decide)
    ⟨reads_u64 u.inputTokens.toNat_lt, reads_u64 u.outputTokens.toNat_lt, trivial⟩
    (by simp)

lemma reads_plannedContract (c : PlannedContract) : plannedContract.Reads c :=
  reads_record (by decide)
    ⟨reads_string _, reads_string _, reads_string _, trivial⟩ rfl

lemma reads_transaction (t : Transaction) : transaction.Reads t :=
  reads_record (by decide)
    ⟨reads_string _, reads_string _, reads_list fun s _ => reads_string s, trivial⟩ rfl

lemma reads_artifactStatus {s : ArtifactStatus} (h : s.attempt < 2 ^ 32) :
    artifactStatus.Reads s :=
  reads_record (by decide) ⟨reads_string _, reads_bool _, reads_u32 h, trivial⟩ rfl

/-- An artifact is read back. -/
theorem reads_artifact {a : Artifact} (h : a.Fits) : artifact.Reads a := by
  have hsize : (optional "size" u64).Reads a.size :=
    reads_optional fun n hn => ⟨reads_u64 (h.size n hn), by simp [u64, natural, Value.nat]⟩
  refine reads_record (by decide) ?_ rfl
  exact ⟨reads_string _, reads_string _, reads_bool _, reads_optional_string _,
    reads_optional_string _, reads_size h.order, hsize, reads_optional_any h.metadata,
    reads_u32 h.attempt, trivial⟩

/-- A report is read back. -/
theorem reads_report {r : Report} (h : r.Fits) : report.Reads r := by
  refine reads_record (by decide) ?_ rfl
  exact ⟨reads_u32 h.attempt, reads_bool _,
    reads_list fun s hs => reads_artifactStatus (h.artifacts s hs), reads_size h.validCount,
    reads_size h.failedCount, reads_optional_string _, trivial⟩

/-- A result is read back. -/
theorem reads_result {r : ConversionResult} (h : r.Fits) : result.Reads r := by
  refine reads_record (by decide) ?_ rfl
  exact ⟨reads_uuid _, reads_mode _, reads_list fun a ha => reads_artifact (h.artifacts a ha),
    reads_list fun t _ => reads_transaction t, reads_optional_any h.deployment,
    reads_u32 h.attempts, reads_usage r.usage, reads_instant h.finishedAt, trivial⟩

end Wire

end ContractConversion
