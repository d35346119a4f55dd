import ContractConversion.Proofs.Wire.Models
import ContractConversion.Wire.Event

/-!
# Events are read back

An event that fits its written form is read back from its line, unless containers stand too deep in
it (`Event.ofLine_toLine`). The depth is that of the whole event: embedded JSON that was itself read
from a text can be too deep once the event is around it.
-/

namespace ContractConversion

open Json

/-- What the event holds fits its written form. -/
def Event.Fits : Event → Prop
  | phase1Complete analysis _ => analysis.Fits
  | phase3Start attempt => attempt < 2 ^ 32
  | phase4Start attempt _ => attempt < 2 ^ 32
  | validation report => report.Fits
  | artifactReady artifact => artifact.Fits
  | done result => result.Fits
  | error _ phase _ => ∀ n, phase = some n → n < 2 ^ 8
  | _ => True

namespace Wire

open Codec Field

/-- An event that consists of named values is read from them. -/
lemma reads_eventContent {kind : String} {types : List Type} {make : Tuple types → Event}
    {e : Event} (name : String) (fields : Fields types) (tuple : Tuple types)
    (hlookup : eventKinds.lookup name = some (eventContent kind types fields make))
    (hmake : make tuple = e) (hnames : fields.names.Nodup) (hreads : fields.Reads tuple) :
    ReadsFrom event.decode (.obj [("type", .str name), ("data", .obj (fields.encode tuple))]) e :=
  Tagged.Layout.reads_content eventLayout (by decide) hlookup
    (hmake ▸ (Fields.reads_decodeStrict hnames hreads _).map make)

/-- **An event that fits is read back.** -/
theorem reads_event {e : Event} (h : e.Fits) : event.Reads e := by
  cases e with
  | phase1Start id =>
    exact reads_eventContent "phase1_start" phase1StartFields (id, ()) rfl rfl (by decide)
      ⟨reads_uuid id, trivial⟩
  | phase1Complete analysis usage =>
    exact reads_eventContent "phase1_complete" phase1CompleteFields (analysis, usage, ()) rfl rfl
      (by decide) ⟨reads_any h.normal h.integral, reads_usage usage, trivial⟩
  | phase2Start => exact Tagged.Layout.reads_unit eventLayout rfl
  | phase2Complete contracts transactions usage =>
    exact reads_eventContent "phase2_complete" phase2CompleteFields
      (contracts, transactions, usage, ()) rfl rfl (by decide)
      ⟨reads_list fun c _ => reads_plannedContract c, reads_list fun t _ => reads_transaction t,
        reads_usage usage, trivial⟩
  | phase3Start attempt =>
    exact reads_eventContent "phase3_start" phase3StartFields (attempt, ()) rfl rfl (by decide)
      ⟨reads_u32 h, trivial⟩
  | phase4Start attempt retrying =>
    exact reads_eventContent "phase4_start" phase4StartFields (attempt, retrying, ()) rfl rfl
      (by decide) ⟨reads_u32 h, reads_list fun s _ => reads_string s, trivial⟩
  | validation r =>
    exact Tagged.Layout.reads_content eventLayout (by decide) rfl
      ((reads_report h).map Event.validation)
  | artifactReady a =>
    exact reads_eventContent "artifact_ready" artifactReadyFields (a, ()) rfl rfl (by decide)
      ⟨reads_artifact h, trivial⟩
  | done r =>
    exact reads_eventContent "done" doneFields (r, ()) rfl rfl (by decide)
      ⟨reads_result h, trivial⟩
  | error message phase detail =>
    have hphase : (optional "phase" u8).Reads phase :=
      reads_optional fun n hn => ⟨reads_u8 (h n hn), by simp [u8, natural, Value.nat]⟩
    exact reads_eventContent "error" errorFields (message, phase, detail, ()) rfl rfl (by decide)
      ⟨reads_string message, hphase, reads_optional_string detail, trivial⟩

/-- An event is written as an object. -/
lemma exists_encodeEvent (e : Event) : ∃ members, encodeEvent e = .obj members := by
  rw [encodeEvent]
  split
  · exact ⟨_, rfl⟩
  · exact ⟨_, rfl⟩

end Wire

/-! ## Lines -/

/-- Only the line break is trimmed off the line of an object. -/
lemma Text.trim_line (members : List (String × Value)) :
    trim ((Value.obj members).compact ++ "\n") = (Value.obj members).compact := by
  have hopen : isBlank '\x7b' = false := by decide
  have hclose : isBlank '\x7d' = false := by decide
  have hbreak : isBlank '\n' = true := by decide
  have hline : "\n".toList = ['\n'] := rfl
  rw [trim, Value.compact, String.toList_append, String.toList_ofList, hline, Value.compactChars,
    trimChars]
  congr 1
  rw [List.cons_append, List.cons_append, List.dropWhile_cons_of_neg (by simp [hopen]),
    dropBlankEnd]
  simp [hbreak, hclose]

namespace Event

/-- **An event that fits is read back from its line**, unless containers stand too deep in it. -/
theorem ofLine_toLine {e : Event} (h : e.Fits) (hdepth : (Wire.encodeEvent e).depth ≤ depthLimit) :
    ofLine e.toLine = .ok e := by
  have hreads := Wire.reads_event h
  obtain ⟨t, hparse, ht⟩ : ∃ t, Document.parse ((Wire.encodeEvent e).compactChars.map .char) =
      ⟨t, none⟩ ∧ Tree.Shows (Wire.encodeEvent e) t :=
    Document.parse_compact hreads.integral hdepth
  have hread := hreads.read_eq .text t ht
  have htrim : Text.trim e.toLine = (Wire.encodeEvent e).compact := by
    obtain ⟨members, hmembers⟩ := Wire.exists_encodeEvent e
    rw [toLine, hmembers, Text.trim_line]
  have hsymbols : Text.symbolsOf (Wire.encodeEvent e).compact =
      (Wire.encodeEvent e).compactChars.map .char := by
    rw [Text.symbolsOf, Value.compact, String.toList_ofList]
  rw [ofLine, htrim, hsymbols, hparse, Document.readWith, hread]
  rfl

end Event

end ContractConversion
