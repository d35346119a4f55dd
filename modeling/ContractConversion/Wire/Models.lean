import ContractConversion.Event
import ContractConversion.Json.Tagged

/-!
# The written form of plans, artifacts and results

One codec for each record that a session, its reader and its audit trail exchange. Members are
written in the order given here. Optional members without a value are left out, and members with a
default may be missing when they are read.
-/

namespace ContractConversion.Wire

open Json

/-- The name of a mode. -/
def mode : Codec Mode :=
  .named [("single", .single), ("multi", .multi)] Mode.name

/-- The name of a status. -/
def status : Codec Status :=
  .named Status.known Status.name

/-- A session identifier. -/
def uuid : Codec Uuid :=
  .written "a formatted UUID string" Uuid.format fun s =>
    (Uuid.parse s).mapError fun fault => "UUID parsing failed: " ++ fault.message

/-- A time. -/
def instant : Codec Time.Instant :=
  .written "an RFC 3339 formatted date and time string" Time.Instant.format fun s =>
    (Time.Instant.parse s).mapError Time.InstantFault.message

def usage : Codec Usage :=
  .record [Nat, Nat] "Usage"
    (.defaulted "input_tokens" .u64 0, .defaulted "output_tokens" .u64 0, ())
    (fun u => (u.inputTokens.toNat, u.outputTokens.toNat, ()))
    (fun (input, output, ()) => ⟨.ofNat input, .ofNat output⟩)

def plannedContract : Codec PlannedContract :=
  .record [String, String, String] "PendingSpec"
    (.required "name" .string, .defaulted "description" .string "",
      .defaulted "responsibilities" .string "", ())
    (fun c => (c.name, c.description, c.responsibilities, ()))
    (fun (name, description, responsibilities, ()) => ⟨name, description, responsibilities⟩)

def transaction : Codec Transaction :=
  .record [String, String, List String] "TransactionSpec"
    (.required "name" .string, .defaulted "description" .string "",
      .defaulted "contracts" (.list .string) [], ())
    (fun t => (t.name, t.description, t.contracts, ()))
    (fun (name, description, contracts, ()) => ⟨name, description, contracts⟩)

def plan : Codec Plan :=
  .record [List PlannedContract, List Transaction] "Plan"
    (.defaulted "contracts" (.list plannedContract) [],
      .defaulted "transactions" (.list transaction) [], ())
    (fun p => (p.contracts, p.transactions, ()))
    (fun (contracts, transactions, ()) => ⟨contracts, transactions⟩)

def artifact : Codec Artifact :=
  .record
    [String, String, Bool, Option String, Option String, Nat, Option Nat, Option Value, Nat]
    "Artifact"
    (.required "name" .string, .required "code" .string, .defaulted "validated" .bool false,
      .optional "validation_error" .string, .optional "role" .string,
      .defaulted "order" .size 0, .optional "size" .u64, .optional "metadata" .any,
      .defaulted "attempt" .u32 0, ())
    (fun a => (a.name, a.code, a.validated, a.validationError, a.role, a.order, a.size, a.metadata,
      a.attempt, ()))
    (fun (name, code, validated, validationError, role, order, size, metadata, attempt, ()) =>
      ⟨name, code, validated, validationError, role, order, size, metadata, attempt⟩)

def artifactStatus : Codec ArtifactStatus :=
  .record [String, Bool, Nat] "ArtifactStatus"
    (.required "name" .string, .required "validated" .bool, .required "attempt" .u32, ())
    (fun s => (s.name, s.validated, s.attempt, ()))
    (fun (name, validated, attempt, ()) => ⟨name, validated, attempt⟩)

def report : Codec Report :=
  .record [Nat, Bool, List ArtifactStatus, Nat, Nat, Option String] "ValidationReport"
    (.required "attempt" .u32, .required "passed" .bool,
      .required "artifacts" (.list artifactStatus), .required "valid_count" .size,
      .required "failed_count" .size, .optional "error" .string, ())
    (fun r => (r.attempt, r.passed, r.artifacts, r.validCount, r.failedCount, r.error, ()))
    (fun (attempt, passed, artifacts, validCount, failedCount, error, ()) =>
      ⟨attempt, passed, artifacts, validCount, failedCount, error⟩)

def result : Codec ConversionResult :=
  .record
    [Uuid, Mode, List Artifact, List Transaction, Option Value, Nat, Usage, Time.Instant]
    "ConversionResult"
    (.required "session_id" uuid, .required "mode" mode, .required "artifacts" (.list artifact),
      .defaulted "transactions" (.list transaction) [], .optional "deployment" .any,
      .required "attempts" .u32, .defaulted "usage" usage {}, .required "finished_at" instant, ())
    (fun r => (r.sessionId, r.mode, r.artifacts, r.transactions, r.deployment, r.attempts, r.usage,
      r.finishedAt, ()))
    (fun (sessionId, mode, artifacts, transactions, deployment, attempts, usage, finishedAt, ()) =>
      ⟨sessionId, mode, artifacts, transactions, deployment, attempts, usage, finishedAt⟩)

end ContractConversion.Wire
