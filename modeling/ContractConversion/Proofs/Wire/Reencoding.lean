import ContractConversion.Proofs.Json.Printer
import ContractConversion.Proofs.Time.Instant
import ContractConversion.Proofs.Wire.Event
import ContractConversion.Proofs.Wire.Portable

/-!
# Events that were read are written stably

An event can be spelled in many ways: with its members in any order, with records written as arrays,
with other escapes, other forms of an identifier, other offsets of a time. Once it is read, its
written form is a fixed point: it is one line, it names the kind of the event, and it is read back
as the same event (`Event.stable_of_ofLine`).

For this, whatever is read has to fit its written form (`Event.fits_of_ofLine`): counts are in their
ranges, times are valid, and embedded JSON is in normal form and not null where null means none. Of
embedded numbers it is asked that they are integers of 64 bits.
-/

namespace ContractConversion

/-! ## Written values are read in normal form -/

namespace Json.Value

/-- **The compact form of a value is read as its normal form.** -/
theorem parse_compact {v : Value} (h : v.Integral) (hdepth : v.depth ≤ depthLimit) :
    parse (Text.symbolsOf v.compact) = .ok v.normalize := by
  rw [Text.symbolsOf, compact, String.toList_ofList]
  exact parse_of_cuts (Lexer.cuts_compact v h) hdepth

end Json.Value

/-! ## Whatever is read fits -/

namespace Json

variable {origin : Origin} {t : Tree}

/-- The value of a field was read from a part, or it is the default. -/
def Field.From {α : Type} (P : Tree → Prop) (origin : Origin) (f : Field α) (a : α) : Prop :=
  (∃ t, P t ∧ f.read origin t = .ok a) ∨ f.absent = some a

namespace Codec

variable {P : Tree → Prop} {name kind : String} {bits n : ℕ}

/-- A natural number that was read is in its range. -/
lemma lt_of_natural (h : (natural bits kind).decode origin t = .ok n) : n < 2 ^ bits := by
  rw [natural] at h
  dsimp only at h
  split at h
  · split at h
    · next hrange =>
      obtain rfl := Except.ok.inj h
      rw [Nat.pow_eq] at hrange
      omega
    · cases h
  · cases h

lemma lt_of_required (h : (Field.required name (natural bits kind)).From P origin n) :
    n < 2 ^ bits := by
  rcases h with ⟨t, -, hread⟩ | habsent
  · have hnatural : (natural bits kind).decode origin t = .ok n := hread
    exact lt_of_natural hnatural
  · cases habsent

lemma lt_of_defaulted (h : (Field.defaulted name (natural bits kind) 0).From P origin n) :
    n < 2 ^ bits := by
  rcases h with ⟨t, -, hread⟩ | habsent
  · have hnatural : (natural bits kind).decode origin t = .ok n := hread
    exact lt_of_natural hnatural
  · obtain rfl := Option.some.inj habsent
    exact Nat.two_pow_pos bits

lemma lt_of_optional {x : Option ℕ}
    (h : (Field.optional name (natural bits kind)).From P origin x) :
    ∀ n, x = some n → n < 2 ^ bits := by
  rcases h with ⟨t, -, hread⟩ | habsent
  · rintro n rfl
    exact lt_of_natural (from_of_nullable hread).2
  · obtain rfl := Option.some.inj habsent
    exact fun n hn => absurd hn (by simp)

/-- A text in a written form was parsed. -/
lemma exists_of_written {α : Type} {expected : String} {format : α → String}
    {parse : String → Except String α} {a : α}
    (h : (written expected format parse).decode origin t = .ok a) : ∃ s, parse s = .ok a := by
  rw [written] at h
  dsimp only at h
  split at h
  · next s _ _ _ =>
    split at h
    · next b hb =>
      obtain rfl := Except.ok.inj h
      exact ⟨s, hb⟩
    · cases h
  · cases h

end Codec
end Json

open Json

/-- All numbers of optional JSON are integers of 64 bits. -/
def OptionalIntegral (data : Option Value) : Prop :=
  ∀ v, data = some v → v.Integral

/-- All numbers of the JSON that an event carries are integers of 64 bits. Its counts are anyway. -/
def Event.Integral : Event → Prop
  | phase1Complete analysis _ => analysis.Integral
  | artifactReady a => OptionalIntegral a.metadata
  | done r => OptionalIntegral r.deployment ∧ ∀ a ∈ r.artifacts, OptionalIntegral a.metadata
  | _ => True

namespace Wire

variable {origin : Origin} {t : Tree} {depth : ℕ} {P : Tree → Prop}

/-- Optional JSON that was read fits. -/
lemma fits_of_optional {name : String} {data : Option Value}
    (h : (Field.optional name Codec.any).From P origin data) (hdata : OptionalIntegral data) :
    OptionalFits data := by
  rcases h with ⟨t, -, hread⟩ | habsent
  · rintro v rfl
    obtain ⟨hnull, hread⟩ := read_of_nullable_any hread
    exact ⟨⟨Tree.normal_of_read t hread, hdata v rfl⟩, hnull⟩
  · obtain rfl := Option.some.inj habsent
    exact fun v hv => absurd hv (by simp)

/-- A time that was read is valid. -/
lemma valid_of_instant {time : Time.Instant} (h : instant.decode origin t = .ok time) :
    time.Valid := by
  obtain ⟨s, hs⟩ := Codec.exists_of_written h
  exact Time.Instant.valid_of_parse (ok_of_mapError hs)

lemma fits_of_artifact {a : Artifact} (ht : t.Standing depth) (h : artifact.decode origin t = .ok a)
    (hmetadata : OptionalIntegral a.metadata) : a.Fits := by
  obtain ⟨⟨name, code, validated, error, role, order, size, metadata, attempt, _⟩, hfrom, rfl⟩ :=
    Codec.from_of_record ht.parts h
  obtain ⟨-, -, -, -, -, horder, hsize, hfrom, hattempt, -⟩ := hfrom
  exact ⟨Codec.lt_of_defaulted horder, Codec.lt_of_optional hsize, fits_of_optional hfrom hmetadata,
    Codec.lt_of_defaulted hattempt⟩

lemma fits_of_report {r : Report} (ht : t.Standing depth) (h : report.decode origin t = .ok r) :
    r.Fits := by
  obtain ⟨⟨attempt, passed, artifacts, valid, failed, error, _⟩, hfrom, rfl⟩ :=
    Codec.from_of_record ht.parts h
  obtain ⟨hattempt, -, hartifacts, hvalid, hfailed, -⟩ := hfrom
  refine ⟨Codec.lt_of_required hattempt, fun s hs => ?_, Codec.lt_of_required hvalid,
    Codec.lt_of_required hfailed⟩
  rcases hartifacts with ⟨t, ht, hread⟩ | habsent
  · obtain ⟨t', ht', hread'⟩ := Codec.from_of_list ht.parts hread s hs
    obtain ⟨⟨name, validated, attempt, _⟩, ⟨-, -, hattempt, -⟩, rfl⟩ :=
      Codec.from_of_record ht'.parts hread'
    exact Codec.lt_of_required hattempt
  · cases habsent

lemma fits_of_result {r : ConversionResult} (ht : t.Standing depth)
    (h : result.decode origin t = .ok r) (hdeployment : OptionalIntegral r.deployment)
    (hmetadata : ∀ a ∈ r.artifacts, OptionalIntegral a.metadata) : r.Fits := by
  obtain ⟨⟨id, mode, artifacts, transactions, deployment, attempts, usage, finished, _⟩, hfrom,
    rfl⟩ := Codec.from_of_record ht.parts h
  obtain ⟨-, -, hartifacts, -, hfrom, hattempts, -, hfinished, -⟩ := hfrom
  refine ⟨fun a ha => ?_, fits_of_optional hfrom hdeployment, Codec.lt_of_required hattempts,
    ?_⟩
  · rcases hartifacts with ⟨t, ht, hread⟩ | habsent
    · obtain ⟨t', ht', hread'⟩ := Codec.from_of_list ht.parts hread a ha
      exact fits_of_artifact ht' hread' (hmetadata a ha)
    · cases habsent
  · rcases hfinished with ⟨t, -, hread⟩ | habsent
    · have hinstant : instant.decode origin t = .ok finished := hread
      exact valid_of_instant hinstant
    · cases habsent

/-- **Whatever tree of a text an event is read from, it fits its written form**, as long as its
numbers are integers. -/
theorem fits_of_decode {e : Event} (ht : t.Standing 0) (h : event.decode origin t = .ok e)
    (he : e.Integral) : e.Fits := by
  obtain ⟨origin, hfrom⟩ := exists_eventFrom ht h
  cases e with
  | phase1Complete analysis usage =>
    obtain ⟨hanalysis, -⟩ := hfrom
    rcases hanalysis with ⟨t, -, hread⟩ | habsent
    · exact ⟨Tree.normal_of_read t hread, he⟩
    · cases habsent
  | phase3Start attempt => exact Codec.lt_of_required hfrom.1
  | phase4Start attempt retrying => exact Codec.lt_of_required hfrom.1
  | validation r =>
    obtain ⟨t, ht, hread⟩ := hfrom
    exact fits_of_report ht hread
  | artifactReady a =>
    obtain ⟨⟨t, ht, hread⟩ | habsent, -⟩ := hfrom
    · exact fits_of_artifact ht hread he
    · cases habsent
  | done r =>
    obtain ⟨⟨t, ht, hread⟩ | habsent, -⟩ := hfrom
    · exact fits_of_result ht hread he.1 he.2
    · cases habsent
  | error message phase detail =>
    obtain ⟨-, hphase, -⟩ := hfrom
    exact Codec.lt_of_optional hphase
  | _ => trivial

/-- The written form of an event names its kind. -/
lemma type_encodeEvent (e : Event) :
    (encodeEvent e).normalize.get? "type" = some (.str e.name) := by
  have hne : ¬ ("data" : String) = "type" := by decide
  have hlt : ("data" : String) < "type" := by decide
  rw [encodeEvent]
  split
  · next data hdata =>
    simp [Value.normalize, Value.normalizeMembers, Value.ofMembers, Value.insertMember, Value.get?,
      hne, hlt, List.lookup_cons]
  · simp [Value.normalize, Value.normalizeMembers, Value.ofMembers, Value.insertMember, Value.get?]

end Wire

namespace Event

/-- **Whatever line an event is read from, it fits its written form**, as long as its numbers are
integers. -/
theorem fits_of_ofLine {line : String} {e : Event} (h : ofLine line = .ok e) (he : e.Integral) :
    e.Fits := by
  obtain ⟨e', hread, h⟩ := bind_eq_ok.mp h
  obtain ⟨-, -, h⟩ := bind_eq_ok.mp h
  obtain rfl := Except.ok.inj h
  exact Wire.fits_of_decode (Document.standing_parse _) hread he

/-- **An event that was read is written stably.** Whatever line it was read from, and however it was
spelled there, as long as its numbers are integers of 64 bits: it is written as one line, which as
JSON has the name of the event for its `type`, and which is read back as the same event; so writing
what was read changes the line no more. -/
theorem stable_of_ofLine {line : String} {e : Event} (h : ofLine line = .ok e) (he : e.Integral) :
    (∃ text, e.toLine = text ++ "\n" ∧ '\n' ∉ text.toList ∧
      ∃ v, Value.parse (Text.symbolsOf text) = .ok v ∧ v.get? "type" = some (.str e.name)) ∧
    ofLine e.toLine = .ok e ∧ (ofLine e.toLine).map toLine = .ok e.toLine := by
  have hfits : e.Fits := fits_of_ofLine h he
  have hdepth : (Wire.encodeEvent e).depth ≤ depthLimit := (portable_of_ofLine h).depth_encode
  have hintegral : (Wire.encodeEvent e).Integral := (Wire.reads_event hfits).integral
  have hread : ofLine e.toLine = .ok e := ofLine_toLine hfits hdepth
  refine ⟨⟨(Wire.encodeEvent e).compact, rfl, fun hbreak => ?_, _,
    Value.parse_compact hintegral hdepth, Wire.type_encodeEvent e⟩, hread, ?_⟩
  · rw [Value.compact, String.toList_ofList] at hbreak
    exact absurd (Value.le_of_mem_compactChars _ _ hbreak) (by decide)
  · rw [hread]
    rfl

/-- An event with its content before its kind, a record written as an array, a member that nobody
asked for, one member twice and another with an escape. -/
theorem stable_of_ofLine_reordered :
    let line := "\x7b\"data\":\x7b\"usage\":[5,6],\"note\":0,\"analysis\":" ++
      "\x7b\"b\":1,\"a\":\"\\u0041\",\"b\":-2\x7d\x7d,\"type\":\"phase1_complete\"\x7d"
    let e := phase1Complete (.obj [("a", .str "A"), ("b", .num (.int (-2)))]) ⟨5, 6⟩
    (ofLine line = .ok e ∧ e.Integral) ∧
    (∃ text, e.toLine = text ++ "\n" ∧ '\n' ∉ text.toList ∧
      ∃ v, Value.parse (Text.symbolsOf text) = .ok v ∧ v.get? "type" = some (.str e.name)) ∧
    ofLine e.toLine = .ok e ∧ (ofLine e.toLine).map toLine = .ok e.toLine := by
  intro line e
  have hread : ofLine line = .ok e := by decide +kernel
  have hintegral : e.Integral := ⟨trivial, ⟨by decide, by decide⟩, trivial⟩
  exact ⟨⟨hread, hintegral⟩, stable_of_ofLine hread hintegral⟩

end Event

end ContractConversion
