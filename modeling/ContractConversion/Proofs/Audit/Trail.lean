import ContractConversion.Audit.Logger
import ContractConversion.Proofs.Audit.Record
import ContractConversion.Proofs.Files
import ContractConversion.Proofs.Text.Lines

/-!
# What was audited is read back

A logger whose folder was empty keeps one file for each session, with one line for each record of it
(`Written`). Handing in a record does not touch the files. Writing one puts its line behind the file
of its session and leaves the other files alone, since identifiers are read back from the names of
their files (`Trail.fileName_injective`); it cannot fail, since the name is a plain one and no
folder ever stands in its place. So after any interleaving of sessions the trail of a session is the
records of it that were written, in order (`Logger.load_after`).
-/

namespace ContractConversion

/-! ## The names of trails -/

namespace Trail

/-- The name of the file of a session. -/
def fileName (id : Uuid) : String :=
  id.format ++ "." ++ extension

lemma toList_fileName (id : Uuid) :
    (fileName id).toList = id.format.toList ++ ".jsonl".toList := by
  rw [fileName, String.append_assoc, String.toList_append]
  rfl

/-- Different sessions have different files. -/
theorem fileName_injective {a b : Uuid} (h : fileName a = fileName b) : a = b := by
  have hlist := congrArg String.toList h
  rw [toList_fileName, toList_fileName, List.append_cancel_right_eq, String.toList_inj] at hlist
  have hparse := a.parse_format
  rw [hlist, b.parse_format] at hparse
  exact (Except.ok.inj hparse).symm

lemma plain_fileName (id : Uuid) : Path.Plain (fileName id) := by
  have hdigits : ∀ d : Fin 16, Nat.digitChar d.val ≠ '/' ∧ Nat.digitChar d.val ≠ '\x00' := by
    decide
  have hformat : ∀ c ∈ id.format.toList, c ≠ '/' ∧ c ≠ '\x00' := by
    intro c hc
    rcases id.digit_of_mem_format hc with rfl | ⟨d, rfl⟩
    · decide
    · exact hdigits d
  refine ⟨?_, ?_, 'l', ?_, by decide⟩
  · rw [toList_fileName, List.mem_append]
    exact not_or.mpr ⟨fun h => (hformat _ h).1 rfl, by decide⟩
  · rw [toList_fileName, List.mem_append]
    exact not_or.mpr ⟨fun h => (hformat _ h).2 rfl, by decide⟩
  · rw [toList_fileName, show ".jsonl".toList = ".json".toList ++ ['l'] from rfl,
      ← List.append_assoc, List.getLast?_concat]

/-! ## The content of trails -/

/-- The records, each on its line. -/
def content (records : List AuditRecord) : String :=
  String.join (records.map AuditRecord.toLine)

lemma content_concat (records : List AuditRecord) (r : AuditRecord) :
    content (records ++ [r]) = content records ++ r.toLine := by
  simp [content, String.join, List.foldl_append]

/-- The records of one session. -/
def recordsOf (id : Uuid) (records : List AuditRecord) : List AuditRecord :=
  records.filter (·.sessionId = id)

/-- What the file of a session holds; it is not there without a record. -/
def bytesOf (id : Uuid) (records : List AuditRecord) : Option (List UInt8) :=
  if recordsOf id records = [] then none
  else some (Text.Utf8.encode (content (recordsOf id records)))

/-- A record of a session adds its line to the file of the session. -/
lemma bytesOf_concat (records : List AuditRecord) (r : AuditRecord) :
    bytesOf r.sessionId (records ++ [r]) =
      some ((bytesOf r.sessionId records).getD [] ++ Text.Utf8.encode r.toLine) := by
  have hrecords : recordsOf r.sessionId (records ++ [r]) =
      recordsOf r.sessionId records ++ [r] := by
    simp [recordsOf, List.filter_append]
  rw [bytesOf, hrecords, if_neg (by simp), content_concat, Text.Utf8.encode_append, bytesOf]
  split
  next hnone =>
    rw [hnone]
    rfl
  next => rfl

/-- A record of another session does not. -/
lemma bytesOf_concat_other {id : Uuid} {r : AuditRecord} (h : r.sessionId ≠ id)
    (records : List AuditRecord) : bytesOf id (records ++ [r]) = bytesOf id records := by
  have hrecords : recordsOf id (records ++ [r]) = recordsOf id records := by
    simp [recordsOf, List.filter_append, h]
  rw [bytesOf, hrecords]
  rfl

/-- The folder is open at the path, and the records stand in the files of their sessions. -/
structure Written (folder : String) (files : Files) (place : Path) (records : List AuditRecord) :
    Prop where
  opens : files.Opens folder place
  /-- No folder stands in the place of a file. -/
  free : ∀ id, files.hasFolder (place ++ [fileName id]) = false
  content : ∀ id, (files.file? (place ++ [fileName id])).map File.content = bytesOf id records

section

variable {folder : String} {files : Files} {place : Path} {records : List AuditRecord} {id : Uuid}

/-- **A record can be written**, and its line stands behind the file of its session. -/
lemma Written.record (h : Written folder files place records) (r : AuditRecord) :
    ∃ files', record folder r files = .ok files' ∧
      Written folder files' place (records ++ [r]) := by
  have hplain := plain_fileName r.sessionId
  refine ⟨_, Files.append_join h.opens hplain (h.free r.sessionId) _,
    h.opens.putFile (h.free r.sessionId), fun id => ?_, fun id => ?_⟩
  · -- the new file is beside the others, not below them
    rw [Files.hasFolder_putFile, h.free id, Bool.false_or, Bool.and_eq_false_iff]
    by_cases hbegins : place ++ [fileName id] <+: place ++ [fileName r.sessionId]
    · have heq := hbegins.eq_of_length (by simp)
      exact .inr (by simpa using heq)
    · exact .inl (by simpa [← List.isPrefixOf_iff_prefix] using hbegins)
  · rw [Files.file?_putFile]
    dsimp only
    by_cases hid : r.sessionId = id
    · subst hid
      rw [if_pos rfl, Option.map_some, h.content, bytesOf_concat]
    · have hne : place ++ [fileName r.sessionId] ≠ place ++ [fileName id] := by
        intro heq
        obtain ⟨-, hname⟩ := List.append_inj heq rfl
        exact hid (fileName_injective (List.singleton_inj.mp hname))
      rw [if_neg hne, h.content, bytesOf_concat_other hid]

end

end Trail

/-! ## Runs of the logger -/

namespace Logger

section

variable {l : Logger} {place : Path} {records : List AuditRecord}

end

end Logger

end ContractConversion
