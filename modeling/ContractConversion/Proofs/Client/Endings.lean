import ContractConversion.Proofs.Client.Epochs
import ContractConversion.Proofs.Stream.Reading
import ContractConversion.Proofs.Text.Utf8
import ContractConversion.Proofs.Wire.Reencoding
import ContractConversion.Server.Http

/-!
# How a conversion ends for a client

A transport hands over bytes until it ends or fails. The events that are decoded by then decide how
the conversion ends for the client: with the first terminal one of them, or else with an error of
the transport (`Client.ended_of_stream`). Whatever the bytes are, it ends, and so whoever waits for
the end is never left waiting.
-/

namespace ContractConversion

/-! ## What a transport hands over -/

namespace StreamReader

/-- The bytes that are handed over before the transport fails. -/
def transported : List Chunk → List UInt8
  | .bytes bytes :: rest => bytes ++ transported rest
  | _ => []

/-- Why the transport fails, if it does. -/
def failure? : List Chunk → Option String
  | [] => none
  | .failed message :: _ => some message
  | .bytes _ :: rest => failure? rest

/-- The frames that a reader with some bytes of a line decodes: when the transport fails, only those
that have a line end. -/
def framesFrom (buffer : List UInt8) (chunks : List Chunk) : List (List UInt8) :=
  let frames := (buffer ++ transported chunks).splitOn LineDecoder.newline
  if (failure? chunks).isSome then frames.dropLast else frames

/-- The events that are decoded of a stream, those behind a terminal one included. -/
def decoded (chunks : List Chunk) : List Event :=
  (framesFrom [] chunks).filterMap event?

/-- How a stream without a terminal event ends. -/
def endOf (chunks : List Chunk) : StreamEnd :=
  match failure? chunks with
  | none => .truncated
  | some message => .failed message

lemma framesFrom_failed (buffer : List UInt8) (message : String) (rest : List Chunk) :
    framesFrom buffer (.failed message :: rest) = LineDecoder.complete buffer := by
  rw [framesFrom, transported, List.append_nil]
  · rfl
  · nofun

/-- The frames that a chunk completes come before those of what is kept and the chunks behind. -/
lemma framesFrom_bytes (buffer bytes : List UInt8) (rest : List Chunk) :
    framesFrom buffer (.bytes bytes :: rest) =
      LineDecoder.complete (buffer ++ bytes) ++
        framesFrom (LineDecoder.kept (buffer ++ bytes)) rest := by
  rw [framesFrom, framesFrom, transported, failure?, ← List.append_assoc]
  split
  · exact LineDecoder.complete_append _ _
  · exact LineDecoder.segments_append _ _

/-- **What a reader hears of any chunks.** Whatever the transport hands over, however it is cut and
wherever it fails, the reader hears the decoded events up to the first terminal one. -/
lemma readFrom_eq (d : LineDecoder) (hd : LineDecoder.segments d.buffer = [d.buffer])
    (chunks : List Chunk) :
    readFrom d chunks = outcome ((framesFrom d.buffer chunks).filterMap event?) (endOf chunks) := by
  induction chunks generalizing d with
  | nil =>
    have hframes : framesFrom d.buffer [] = [d.buffer] := by
      rw [framesFrom, transported, List.append_nil]
      · exact hd
      · nofun
    rw [readFrom_nil, hframes]
    rfl
  | cons chunk rest ih =>
    cases chunk with
    | failed message =>
      rw [framesFrom_failed, LineDecoder.complete, hd, readFrom]
      rfl
    | bytes bytes =>
      have hrest := ih ⟨LineDecoder.kept (d.buffer ++ bytes)⟩ (LineDecoder.segments_kept _)
      rw [readFrom_bytes, hrest, after_outcome, ← List.filterMap_append, ← framesFrom_bytes]
      rfl

lemma read_eq (chunks : List Chunk) : read chunks = outcome (decoded chunks) (endOf chunks) :=
  readFrom_eq {} rfl chunks

/-- The error of a transport that brought no terminal event: it says why the transport failed. -/
def lost (chunks : List Chunk) : StoreError where
  message := (failure? chunks).getD "Stream ended before the conversion finished"
  phase := none
  detail := some "transport"

/-- The event that ends a conversion: the first terminal one, or else the error of the transport. -/
def last (chunks : List Chunk) : Event :=
  ((decoded chunks).find? (·.isTerminal)).getD
    (.error (lost chunks).message (lost chunks).phase (lost chunks).detail)

/-- What a client takes in of a stream and its end is what is not terminal, and then the event that
ends the conversion. -/
lemma told_eq (chunks : List Chunk) :
    (read chunks).1 ++ (read chunks).2.error?.toList =
      (decoded chunks).takeWhile (fun e => !e.isTerminal) ++ [last chunks] := by
  have hany : (decoded chunks).any (·.isTerminal) =
      ((decoded chunks).find? (·.isTerminal)).isSome := (List.isSome_find?).symm
  rw [read_eq, outcome, hany, heard, List.append_assoc, last]
  cases (decoded chunks).find? (·.isTerminal) with
  | some terminal => rfl
  | none =>
    rw [lost, endOf]
    cases failure? chunks <;> rfl

lemma last_of_some {chunks : List Chunk} {e : Event}
    (h : (decoded chunks).find? (·.isTerminal) = some e) : last chunks = e := by
  rw [last, h]
  rfl

lemma last_of_none {chunks : List Chunk} (h : (decoded chunks).find? (·.isTerminal) = none) :
    last chunks = .error (lost chunks).message (lost chunks).phase (lost chunks).detail := by
  rw [last, h]
  rfl

lemma isTerminal_last (chunks : List Chunk) : (last chunks).isTerminal = true := by
  cases hfind : (decoded chunks).find? (·.isTerminal) with
  | some e =>
    rw [last_of_some hfind]
    exact List.find?_some hfind
  | none =>
    rw [last_of_none hfind]
    rfl

/-- What a client is told comes to its end with a terminal event, the only one. -/
def Ends (told : List Event × StreamEnd) (last : Event) : Prop :=
  ∃ before, told.1 ++ told.2.error?.toList = before ++ [last] ∧
    (∀ e ∈ before, e.isTerminal = false) ∧ last.isTerminal = true

lemma ends_read (chunks : List Chunk) : Ends (read chunks) (last chunks) :=
  ⟨_, told_eq chunks, fun e he => by simpa using List.mem_takeWhile_imp he, isTerminal_last chunks⟩

/-- A conversion ends with a result only if the first terminal event is one. -/
lemma last_eq_done_iff {chunks : List Chunk} {result : ConversionResult} :
    last chunks = .done result ↔
      (decoded chunks).find? (·.isTerminal) = some (.done result) := by
  cases hfind : (decoded chunks).find? (·.isTerminal) with
  | some e => rw [last_of_some hfind, Option.some_inj]
  | none =>
    rw [last_of_none hfind]
    exact ⟨nofun, nofun⟩

end StreamReader

/-! ## What becomes of the store -/

namespace Store

variable {s : Store}

/-- Without a terminal event a store has neither a result nor an error. -/
lemma open_of_applyAll (epoch : ℕ) {events : List Event}
    (h : ∀ e ∈ events, e.isTerminal = false) :
    let s := (forEpoch epoch).applyAll events
    s.isFinished = false ∧ s.result = none ∧ s.error = none := by
  induction events using List.reverseRecOn with
  | nil => exact ⟨rfl, rfl, rfl⟩
  | append_singleton events event ih =>
    obtain ⟨hopen, hresult, herror⟩ := ih fun e he => h e (List.mem_append_left _ he)
    have hevent := h event (List.mem_append_right _ List.mem_cons_self)
    rw [applyAll_concat, apply_of_unfinished hopen]
    cases event with
    | done result => cases hevent
    | error message phase detail => cases hevent
    | phase1Start sessionId => exact ⟨rfl, hresult, herror⟩
    | phase2Start => exact ⟨rfl, hresult, herror⟩
    | phase3Start attempt => exact ⟨rfl, hresult, herror⟩
    | phase4Start attempt contracts => exact ⟨rfl, hresult, herror⟩
    | _ => exact ⟨hopen, hresult, herror⟩

/-- How a store is finished by an event: with its result, or with its error. -/
inductive EndedBy (s : Store) : Event → Prop where
  | done {result : ConversionResult} :
      s.status = .complete → s.result = some result → s.error = none →
      s.EndedBy (.done result)
  | error {message : String} {phase : Option ℕ} {detail : Option String} :
      s.status = .error → s.result = none → s.error = some ⟨message, phase, detail⟩ →
      s.EndedBy (.error message phase detail)

lemma EndedBy.status {e : Event} (h : s.EndedBy e) : s.status = .complete ∨ s.status = .error := by
  cases h with
  | done hstatus _ _ => exact .inl hstatus
  | error hstatus _ _ => exact .inr hstatus

lemma EndedBy.isFinished {e : Event} (h : s.EndedBy e) : s.isFinished = true := by
  rw [Store.isFinished]
  rcases h.status with hstatus | hstatus <;> rw [hstatus] <;> rfl

lemma EndedBy.complete_iff {e : Event} (h : s.EndedBy e) :
    s.status = .complete ↔ ∃ result, e = .done result := by
  cases h with
  | done hstatus _ _ => exact iff_of_true hstatus ⟨_, rfl⟩
  | error hstatus _ _ => exact iff_of_false (by rw [hstatus]; nofun) nofun

/-- The first terminal event ends the conversion. -/
lemma endedBy_applyAll (epoch : ℕ) {events : List Event} {e : Event}
    (hevents : ∀ e ∈ events, e.isTerminal = false) (he : e.isTerminal = true) :
    ((forEpoch epoch).applyAll (events ++ [e])).EndedBy e := by
  obtain ⟨hopen, hresult, herror⟩ := open_of_applyAll epoch hevents
  rw [applyAll_concat, apply_of_unfinished hopen]
  cases e with
  | done result => exact .done rfl rfl herror
  | error message phase detail => exact .error rfl hresult rfl
  | _ => cases he

end Store

namespace Client

variable {c : Client}

/-- What comes under the epoch of the store is all taken in. -/
lemma store_deliverAll (events : List Event) :
    (c.deliverAll c.store.epoch events).store = c.store.applyAll events := by
  induction events generalizing c with
  | nil => rfl
  | cons event events ih =>
    have hepoch : (c.store.apply event).epoch = c.store.epoch := epoch_applyAll c.store [event]
    have hrest := @ih (c.deliver c.store.epoch event).1
    rw [store_deliver, hepoch] at hrest
    exact hrest

/-- A conversion ends with the last event that its client is told. -/
lemma endedBy_conclude (c : Client) {told : List Event × StreamEnd} {last : Event}
    (h : StreamReader.Ends told last) :
    (c.start.conclude c.start.store.epoch told).store.EndedBy last := by
  obtain ⟨before, htold, hbefore, hlast⟩ := h
  rw [conclude, store_deliverAll, htold]
  exact Store.endedBy_applyAll _ hbefore hlast

/-- Who waits for a conversion just started takes in all that its request brings. -/
lemma wait_start (c : Client) (fetch : Url.Address → Fetch) :
    c.start.wait fetch = c.start.conclude c.start.store.epoch (c.start.request fetch) :=
  rfl

/-- Whatever becomes of a request, the client is told an end. -/
lemma ends_request (c : Client) (fetch : Url.Address → Fetch) :
    ∃ last, StreamReader.Ends (c.request fetch) last := by
  rw [request]
  split
  · exact ⟨_, [], rfl, by simp, rfl⟩
  · split
    · exact ⟨_, [], rfl, by simp, rfl⟩
    · exact ⟨_, [], rfl, by simp, rfl⟩
    · exact ⟨_, StreamReader.ends_read _⟩

/-- **Every stream leaves the client finished.** Whatever bytes the transport hands over, however
they are cut, and whether it ends or fails, the store of a conversion is complete or in error once
its stream has come to its end; so a client that waits for the end of a conversion returns, whatever
the server answers, and also if it refuses or does not answer at all. It is complete exactly if the
first terminal event that is decoded before the end or the failure is a result, and then it has this
result and no error. If that event is an error, the store has this one, and if there is none, the
error of the transport. -/
theorem ended_of_stream (c : Client) (chunks : List Chunk) :
    let s := (c.start.receive c.start.store.epoch chunks).store
    let terminal? := (StreamReader.decoded chunks).find? (·.isTerminal)
    (s.status = .complete ∨ s.status = .error) ∧
      (s.status = .complete ↔ ∃ result, terminal? = some (.done result)) ∧
      (∀ result, terminal? = some (.done result) → s.result = some result ∧ s.error = none) ∧
      (∀ message phase detail, terminal? = some (.error message phase detail) →
        s.result = none ∧ s.error = some ⟨message, phase, detail⟩) ∧
      (terminal? = none → s.result = none ∧ s.error = some (StreamReader.lost chunks)) ∧
      ∀ fetch, (c.start.wait fetch).store.isFinished = true := by
  intro s terminal?
  have hended : s.EndedBy (StreamReader.last chunks) :=
    c.endedBy_conclude (StreamReader.ends_read chunks)
  refine ⟨hended.status, ?_, fun result hdone => ?_, fun message phase detail herror => ?_,
    fun hnone => ?_, fun fetch => ?_⟩
  · rw [hended.complete_iff]
    exact exists_congr fun result => StreamReader.last_eq_done_iff
  · rw [StreamReader.last_of_some hdone] at hended
    cases hended with
    | done _ hresult herror => exact ⟨hresult, herror⟩
  · rw [StreamReader.last_of_some herror] at hended
    cases hended with
    | error _ hresult herror => exact ⟨hresult, herror⟩
  · rw [StreamReader.last_of_none hnone] at hended
    cases hended with
    | error _ hresult herror => exact ⟨hresult, herror⟩
  · obtain ⟨last, hlast⟩ := c.start.ends_request fetch
    rw [wait_start]
    exact (c.endedBy_conclude hlast).isFinished

/-- The message of a refusal is found in its response. -/
lemma message_of_refusal (refusal : Http.Refusal) (name : String) :
    refusalMessage refusal.status name (some (Text.Utf8.encode refusal.response.body)) =
      refusal.message := by
  let value : Json.Value :=
    .obj [("error", .str refusal.message), ("retryable", .bool refusal.retryable)]
  have hbody : refusal.response.body = value.compact := rfl
  have hparse : Json.Value.parse (Text.symbolsOf value.compact) = .ok value.normalize :=
    Json.Value.parse_compact ⟨trivial, trivial, trivial⟩
      (show 1 ≤ Json.depthLimit by decide)
  -- the server writes the members in their order, so reading does not move them
  have hnormal : value.normalize = value := by
    have hbehind : ("retryable" = "error") = False ∧ ("retryable" < "error") = False := by decide
    simp [value, Json.Value.normalize, Json.Value.normalizeMembers, Json.Value.ofMembers,
      Json.Value.insertMember, hbehind]
  rw [refusalMessage, hbody, Option.bind_some, Text.Utf8.symbols_encode, hparse, hnormal]
  rfl

/-- **Who is refused learns why.** The error of a client that a server refuses is worded as the
server words it, and goes by the status of the response. -/
theorem error_of_refused (c : Client) (refusal : Http.Refusal) {fetch : Url.Address → Fetch}
    {address : Url.Address} {name : String} (haddress : c.start.address = .ok address)
    (hfetch : fetch address =
      .refused refusal.status name (some (Text.Utf8.encode refusal.response.body))) :
    (c.start.wait fetch).store.error =
      some ⟨refusal.message, none, some (toString refusal.status)⟩ := by
  have hrequest : c.start.request fetch =
      ([.error refusal.message none (some (toString refusal.status))], .terminal) := by
    rw [request, haddress]
    dsimp only
    rw [hfetch]
    dsimp only
    rw [message_of_refusal]
  have hends : StreamReader.Ends (c.start.request fetch)
      (.error refusal.message none (some (toString refusal.status))) :=
    ⟨[], by rw [hrequest]; rfl, by simp, rfl⟩
  rw [wait_start]
  cases c.endedBy_conclude hends with
  | error _ _ herror => exact herror

end Client
end ContractConversion
