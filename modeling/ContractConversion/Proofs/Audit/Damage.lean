import ContractConversion.Proofs.Audit.Trail

/-!
# Damaged trails

A trail can be read just if no line of it is damaged, and then it holds the records of the lines
that are not blank. Otherwise the first damaged line is reported. Its number is the one among the
lines that are not blank, so it falls short of the place of the line in the file by the number of
blank lines in front of it (`Trail.load_of_readText`).
-/

namespace ContractConversion.Trail

/-- A line that is not blank and holds no record. -/
def Damaged (line : String) : Prop :=
  Text.allBlank line = false ∧ ∃ cause, AuditRecord.ofLine line = .error cause

/-- What is reported of a line that holds no record, under a number. -/
def damage (number : ℕ) (line : String) (cause : Json.Fault) : TrailFault :=
  .malformed number (cause.messageIn (Text.symbolsOf line))

/-! ## Reading lines -/

section

variable {texts : List String} {number : ℕ}

/-- Lines can be read just if each of them holds a record. -/
lemma readFrom_eq_ok {records : List AuditRecord} :
    readFrom number texts = .ok records ↔ texts.map AuditRecord.ofLine = records.map .ok := by
  induction texts generalizing number records with
  | nil => cases records <;> simp [readFrom]
  | cons line texts ih =>
    rw [readFrom]
    cases hline : AuditRecord.ofLine line with
    | error cause => cases records <;> simp [hline]
    | ok r =>
      dsimp only
      rw [map_eq_ok]
      cases records with
      | nil => simp
      | cons s records =>
        simp only [List.map_cons, List.cons.injEq, hline, Except.ok.injEq, ih]
        constructor
        · rintro ⟨_, hmap, rfl, rfl⟩
          exact ⟨rfl, hmap⟩
        · rintro ⟨rfl, hmap⟩
          exact ⟨records, hmap, rfl, rfl⟩

/-- A line that counts is damaged or holds a record. -/
lemma not_damaged_iff {line : String} (hline : Text.allBlank line = false) :
    ¬ Damaged line ↔ ∃ r, AuditRecord.ofLine line = .ok r := by
  rw [Damaged]
  cases AuditRecord.ofLine line <;> simp [hline]

lemma not_damaged_of_blank {line : String} (hline : Text.allBlank line = true) :
    ¬ Damaged line := by
  simp [Damaged, hline]

/-- **The first damaged line is reported**; only the lines that are not blank are numbered. -/
lemma exists_of_readFrom {fault : TrailFault}
    (h : readFrom number (texts.filter fun line => !Text.allBlank line) = .error fault) :
    ∃ before line after cause, texts = before ++ line :: after ∧ (∀ l ∈ before, ¬ Damaged l) ∧
      Text.allBlank line = false ∧ AuditRecord.ofLine line = .error cause ∧
        fault = damage (number + before.countP fun l => !Text.allBlank l) line cause := by
  induction texts generalizing number with
  | nil => cases h
  | cons line texts ih =>
    cases hblank : Text.allBlank line with
    | true =>
      rw [List.filter_cons_of_neg (by simp [hblank])] at h
      obtain ⟨before, damaged, after, cause, rfl, hbefore, hcounts, hcause, rfl⟩ := ih h
      refine ⟨line :: before, damaged, after, cause, rfl,
        List.forall_mem_cons.mpr ⟨not_damaged_of_blank hblank, hbefore⟩, hcounts, hcause, ?_⟩
      rw [List.countP_cons_of_neg (by simp [hblank])]
    | false =>
      rw [List.filter_cons_of_pos (by simp [hblank]), readFrom] at h
      cases hline : AuditRecord.ofLine line with
      | error cause =>
        rw [hline] at h
        exact ⟨[], line, texts, cause, rfl, by simp, hblank, hline, (Except.error.inj h).symm⟩
      | ok r =>
        rw [hline] at h
        dsimp only at h
        obtain ⟨before, damaged, after, cause, rfl, hbefore, hcounts, hcause, rfl⟩ :=
          ih (map_eq_error.mp h)
        refine ⟨line :: before, damaged, after, cause, rfl,
          List.forall_mem_cons.mpr ⟨(not_damaged_iff hblank).mpr ⟨r, hline⟩, hbefore⟩, hcounts,
          hcause, ?_⟩
        rw [List.countP_cons_of_pos (by simp [hblank]), Nat.add_assoc, Nat.add_comm 1]

/-- All lines can be read just if none is damaged. -/
lemma exists_readFrom_iff :
    (∃ records, readFrom number (texts.filter fun line => !Text.allBlank line) = .ok records) ↔
      ∀ line ∈ texts, ¬ Damaged line := by
  constructor
  · rintro ⟨records, hread⟩ line hmem
    cases hblank : Text.allBlank line with
    | true => exact not_damaged_of_blank hblank
    | false =>
      have hcounts : line ∈ texts.filter fun line => !Text.allBlank line :=
        List.mem_filter.mpr ⟨hmem, by rw [hblank]; rfl⟩
      have hmap := List.mem_map_of_mem (f := AuditRecord.ofLine) hcounts
      rw [readFrom_eq_ok.mp hread] at hmap
      obtain ⟨r, -, hr⟩ := List.mem_map.mp hmap
      exact (not_damaged_iff hblank).mpr ⟨r, hr.symm⟩
  · intro h
    cases hread : readFrom number (texts.filter fun line => !Text.allBlank line) with
    | ok records => exact ⟨records, rfl⟩
    | error fault =>
      obtain ⟨before, line, after, cause, rfl, -, hblank, hcause, -⟩ := exists_of_readFrom hread
      exact absurd ⟨hblank, cause, hcause⟩ (h line (List.mem_append_right _ List.mem_cons_self))

end

/-! ## Reading a trail -/

/-- **What a trail is read as.** It can be read just if no line of it is damaged, and then its
records are those of the lines that are not blank, in order. Otherwise the first damaged line is
reported. Its place in the file is the reported number and the blank lines in front of it, so that
the number is that of the line in the file just if there are none. -/
theorem load_of_readText {fs : Files} {folder content : String} {id : Uuid}
    (hcontent : fs.readText (pathOf folder id) = .ok content) :
    ((∃ records, load fs folder id = .ok records) ↔
      ∀ line ∈ Text.lines content, ¬ Damaged line) ∧
    (∀ records, load fs folder id = .ok records →
      ((Text.lines content).filter fun line => !Text.allBlank line).map AuditRecord.ofLine =
        records.map .ok) ∧
    ∀ fault, load fs folder id = .error fault → ∃ before line after cause number,
      Text.lines content = before ++ line :: after ∧ (∀ l ∈ before, ¬ Damaged l) ∧
        Damaged line ∧ AuditRecord.ofLine line = .error cause ∧ fault = damage number line cause ∧
        number + before.countP Text.allBlank = before.length + 1 ∧
        (number = before.length + 1 ↔ ∀ l ∈ before, Text.allBlank l = false) := by
  have hload : load fs folder id = parse content := by rw [load, hcontent]
  rw [hload]
  refine ⟨exists_readFrom_iff, fun records => readFrom_eq_ok.mp, fun fault hfault => ?_⟩
  obtain ⟨before, line, after, cause, hlines, hbefore, hblank, hcause, rfl⟩ :=
    exists_of_readFrom hfault
  have hcount : before.length = before.countP Text.allBlank +
      before.countP fun l => !Text.allBlank l := by
    simpa using before.length_eq_countP_add_countP Text.allBlank
  refine ⟨before, line, after, cause, _, hlines, hbefore, ⟨hblank, cause, hcause⟩, hcause, rfl,
    by omega, ?_⟩
  have hnone : before.countP Text.allBlank = 0 ↔ ∀ l ∈ before, Text.allBlank l = false := by
    simp [List.countP_eq_zero]
  rw [← hnone]
  omega

/-! ## A damaged trail with blank lines -/

/-- The text of a trail whose third line is damaged. -/
def padded : String := "\r\n \nx\n"

lemma lines_padded : Text.lines padded = ["", " ", "x"] := rfl

lemma damaged_x : Damaged "x" :=
  ⟨by decide, .syntaxAt .expectedValue 1, by with_unfolding_all rfl⟩

/-- The file of a session that has this text. -/
def paddedFile (id : Uuid) : Files where
  files := [{ path := ["audit", fileName id], content := Text.Utf8.encode padded }]

lemma readText_paddedFile (id : Uuid) :
    (paddedFile id).readText (pathOf "audit" id) = .ok padded := by
  have hopens : (paddedFile id).Opens "audit" ["audit"] :=
    ⟨by decide, by decide, by rfl, by simp [Files.file?, paddedFile],
      by simp [Files.hasFolder, paddedFile]⟩
  have hfile : (paddedFile id).file? (["audit"] ++ [fileName id]) =
      some ⟨["audit", fileName id], Text.Utf8.encode padded, 0⟩ := by
    simp [Files.file?, paddedFile]
  exact Files.readText_join hopens (plain_fileName id) (by simp [Files.hasFolder, paddedFile])
    hfile rfl

/-- The damaged line is found behind the blank ones. -/
theorem load_of_readText_padded :
    let id : Uuid := ⟨List.replicate 32 0, rfl⟩
    (¬ ∃ records, load (paddedFile id) "audit" id = .ok records) ∧
      ∀ fault, load (paddedFile id) "audit" id = .error fault →
        ∃ before line after cause number, ["", " ", "x"] = before ++ line :: after ∧
          (∀ l ∈ before, ¬ Damaged l) ∧ Damaged line ∧ fault = damage number line cause ∧
            number + before.countP Text.allBlank = before.length + 1 := by
  intro id
  obtain ⟨hok, -, herror⟩ := load_of_readText (readText_paddedFile id)
  rw [lines_padded] at hok herror
  refine ⟨fun h => hok.mp h _ (by simp) damaged_x, fun fault hfault => ?_⟩
  obtain ⟨before, line, after, cause, number, hsplit, hbefore, hline, -, hfault, hcount, -⟩ :=
    herror fault hfault
  exact ⟨before, line, after, cause, number, hsplit, hbefore, hline, hfault, hcount⟩

/-- It is reported under the number of the first line, which is blank. -/
theorem load_misnumbered :
    let id : Uuid := ⟨List.replicate 32 0, rfl⟩
    load (paddedFile id) "audit" id =
        .error (.malformed 1 "expected value at line 1 column 1") ∧
      Text.lines padded = ["", " ", "x"] ∧ ¬ Damaged "" ∧ ¬ Damaged " " ∧ Damaged "x" := by
  intro id
  refine ⟨?_, lines_padded, not_damaged_of_blank (by decide), not_damaged_of_blank (by decide),
    damaged_x⟩
  rw [load, readText_paddedFile]
  with_unfolding_all rfl

end ContractConversion.Trail
