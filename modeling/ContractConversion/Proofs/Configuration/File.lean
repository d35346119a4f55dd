import ContractConversion.Configuration.Resolution
import ContractConversion.Proofs.Files.Writing
import ContractConversion.Proofs.Toml.Document
import ContractConversion.Proofs.Wire.Models

/-!
# Configurations that are saved

The document of a configuration has a table for each section, and these are its members as they
would be written in JSON, those that are absent left out. So a configuration is read back from its
text (`Configuration.parse_render`), and it is in force once it is saved.
-/

namespace ContractConversion

open Json

/-- The numbers of a configuration that fit their settings. Those of a document have 63 bits. -/
structure Configuration.Fits (c : Configuration) : Prop where
  port : c.server.port < 2 ^ 16
  maxSessions : c.server.maxSessions < 2 ^ 63
  sessionTimeoutSecs : c.server.sessionTimeoutSecs < 2 ^ 63
  minSourceChars : c.limits.minSourceChars < 2 ^ 63
  maxSourceChars : c.limits.maxSourceChars < 2 ^ 63
  maxAttempts : c.pipeline.maxAttempts < 2 ^ 32

namespace Configuration

variable {c : Configuration}

/-! ## Reading the sections -/

section

open Codec Field

/-- **A configuration is read from its members.** -/
lemma reads_configuration (h : c.Fits) : Wire.configuration.Reads c := by
  have hwide : ∀ {n : ℕ}, n < 2 ^ 63 → n < 2 ^ 64 := fun h => by omega
  have hserver : Wire.server.Reads c.server :=
    reads_record (by decide)
      ⟨reads_string _, reads_natural (by decide) h.port _, Wire.reads_size (hwide h.maxSessions),
        Wire.reads_u64 (hwide h.sessionTimeoutSecs), trivial⟩ rfl
  have hlimits : Wire.limits.Reads c.limits :=
    reads_record (by decide)
      ⟨Wire.reads_size (hwide h.minSourceChars), Wire.reads_size (hwide h.maxSourceChars), trivial⟩
      rfl
  have hpipeline : Wire.pipeline.Reads c.pipeline :=
    reads_record (by decide) ⟨Wire.reads_u32 h.maxAttempts, trivial⟩ rfl
  have horacle : Wire.oracle.Reads c.oracle :=
    reads_record (by decide) ⟨reads_string _, Wire.reads_optional_string _, trivial⟩ rfl
  have hvalidator : Wire.validator.Reads c.validator :=
    reads_record (by decide)
      ⟨reads_string _, reads_list fun s _ => reads_string s, reads_string _, trivial⟩ rfl
  have haudit : Wire.audit.Reads c.audit :=
    reads_record (by decide) ⟨reads_bool _, reads_string _, trivial⟩ rfl
  have hformat : Wire.logFormat.Reads c.logging.format :=
    reads_named (by cases c.logging.format <;> rfl)
  have hlogging : Wire.logging.Reads c.logging :=
    reads_record (by decide) ⟨hformat, Wire.reads_optional_string _, trivial⟩ rfl
  exact reads_record (by decide)
    ⟨hserver, hlimits, hpipeline, horacle, hvalidator, haudit, hlogging, trivial⟩ rfl

end

/-! ## The document -/

/-- **The sections of the file can be read.** -/
lemma sound_sections (h : c.Fits) : ∀ s ∈ c.sections, s.Sound := by
  have hnumber : ∀ {bits n : ℕ}, bits ≤ 127 → n < 2 ^ bits → (Toml.Setting.number n).Fits :=
    fun hbits hn => Nat.lt_of_lt_of_le hn (Nat.pow_le_pow_right (by omega) hbits)
  have htext : ∀ s, (Toml.Setting.text s).Fits := fun _ => trivial
  have hflag : ∀ b, (Toml.Setting.flag b).Fits := fun _ => trivial
  have htexts : ∀ items, (Toml.Setting.texts items).Fits := fun _ => trivial
  obtain ⟨server, limits, pipeline, ⟨command, model⟩, validator, audit, ⟨format, dir⟩⟩ := c
  obtain ⟨hport, hsessions, htimeout, hminimum, hmaximum, hattempts⟩ := h
  simp only [sections, List.forall_mem_cons, List.not_mem_nil, false_implies, implies_true,
    and_true]
  refine ⟨?server, ?limits, ?pipeline, ?oracle, ?validator, ?audit, ?logging⟩
  case server =>
    refine .of_keys "server" ["host", "port", "max_sessions", "session_timeout_secs"] rfl rfl
      (by decide) ?_
    simp [htext, hnumber _ hport, hnumber _ hsessions, hnumber _ htimeout]
  case limits =>
    refine .of_keys "limits" ["min_source_chars", "max_source_chars"] rfl rfl (by decide) ?_
    simp [hnumber _ hminimum, hnumber _ hmaximum]
  case pipeline =>
    refine .of_keys "pipeline" ["max_attempts"] rfl rfl (by decide) ?_
    simp [hnumber _ hattempts]
  case oracle =>
    cases model with
    | none => exact .of_keys "oracle" ["claude_cmd"] rfl rfl (by decide) (by simp [htext])
    | some model =>
      exact .of_keys "oracle" ["claude_cmd", "model"] rfl rfl (by decide) (by simp [htext])
  case validator =>
    refine .of_keys "validator" ["command", "args", "extension"] rfl rfl (by decide) ?_
    simp [htext, htexts]
  case audit =>
    refine .of_keys "audit" ["enabled", "dir"] rfl rfl (by decide) ?_
    simp [htext, hflag]
  case logging =>
    cases dir with
    | none => exact .of_keys "logging" ["format"] rfl rfl (by decide) (by simp [htext])
    | some dir =>
      exact .of_keys "logging" ["format", "dir"] rfl rfl (by decide) (by simp [htext])

lemma nodup_sections (c : Configuration) : (c.sections.map Toml.Section.name).Nodup := by
  have hnames : c.sections.map Toml.Section.name =
      ["server", "limits", "pipeline", "oracle", "validator", "audit", "logging"] := rfl
  rw [hnames]
  decide

lemma ofTomlItems_texts (items : List String) :
    ofTomlItems (items.map .str) = items.map Value.str := by
  induction items with
  | nil => rfl
  | cons s items ih => rw [List.map_cons, ofTomlItems, ofToml, ih, List.map_cons]

/-- The tables of the document are the members of the configuration. -/
lemma ofTomlEntries_sections :
    Value.obj (ofTomlEntries (c.sections.map Toml.Section.entry)) =
      Wire.configuration.encode c := by
  obtain ⟨server, limits, pipeline, ⟨command, model⟩, ⟨_, args, _⟩, audit, ⟨format, dir⟩⟩ := c
  have hargs := ofTomlItems_texts args
  cases model <;> cases dir
  all_goals
    simp only [sections, List.map_cons, Toml.Section.entry, ofTomlEntries, ofToml,
      Toml.Setting.value, hargs]
    rfl

lemma parse_of_document {text : String} {entries : List (String × Toml.Value)}
    (h : Toml.parse text = some entries) :
    parse text = (Wire.configuration.decode .settings
      (Tree.ofValue (.obj (ofTomlEntries entries)))).toOption := by
  rw [parse, h]
  rfl

/-- **A configuration is read back from its text.** -/
theorem parse_render (h : c.Fits) : parse c.render = some c := by
  have hdocument : Toml.parse c.render = some (c.sections.map Toml.Section.entry) :=
    Toml.parse_render (sound_sections h) (nodup_sections c)
  have hread : Wire.configuration.decode .settings
      (Tree.ofValue (Wire.configuration.encode c)) = .ok c :=
    (reads_configuration h).read_eq .settings _ (Tree.shows_ofValue _)
  rw [parse_of_document hdocument, ofTomlEntries_sections, hread]
  rfl

/-! ## Saved configurations -/

/-- Without variables nothing is overridden. -/
lemma overrideFrom_none (os : List Override) :
    overrideFrom (fun _ => none) c os = (c, none) := by
  induction os with
  | nil => rfl
  | cons o os ih => exact ih

lemma plain_fileName : Path.Plain fileName :=
  ⟨by decide, by decide, 'l', by decide, by decide⟩

/-- **A saved configuration is in force again.** Its text is read as it; once it is saved, at any
path, it is what is resolved there without an environment; and it can be saved as the configuration
file, unless a folder has that name. -/
theorem resolve_of_save (h : c.Fits) :
    parse c.render = some c ∧
      (∀ fs fs' path, save c fs path = .ok fs' → resolve fs' path (fun _ => none) = .ok c) ∧
      ∀ fs : Files, fs.file? [] = none → fs.hasFolder [fileName] = false →
        ∃ fs', save c fs fileName = .ok fs' := by
  refine ⟨parse_render h, fun fs fs' path hsave => ?_, fun fs hfile hfolder =>
    Files.exists_write plain_fileName hfile hfolder _⟩
  obtain ⟨hcontains, htext⟩ := Files.readText_of_write hsave
  have hfile : ofFile fs' path = .ok c := by
    rw [ofFile, if_pos hcontains, htext]
    dsimp only
    rw [parse_render h]
  rw [resolve, hfile]
  simp only [bind, Except.bind, override, overrideFrom_none]
  rfl

/-- A configuration whose texts need all notations. -/
def quoted : Configuration where
  server := { host := "a \"b\"", port := 2 ^ 16 - 1, maxSessions := 2 ^ 63 - 1 }
  oracle := { command := "it's \"\"\" \\ ''' \x00\n", model := some "\n'''\"\"" }
  validator := { args := ["\t", "it's \"b\"", "'\x00"], extension := "" }
  audit := { enabled := false, dir := "C:\\audit" }
  logging := { format := .json, dir := some "it's \\\n" }

/-- It is saved, and in force again. -/
theorem resolve_of_save_quoted :
    quoted.Fits ∧ parse quoted.render = some quoted ∧
      ∃ fs', save quoted {} fileName = .ok fs' ∧
        resolve fs' fileName (fun _ => none) = .ok quoted := by
  have hfits : quoted.Fits := by constructor <;> decide
  obtain ⟨hparse, hresolve, hsave⟩ := resolve_of_save hfits
  obtain ⟨fs', hfs'⟩ := hsave {} rfl rfl
  exact ⟨hfits, hparse, fs', hfs', hresolve _ _ _ hfs'⟩

end Configuration

end ContractConversion
