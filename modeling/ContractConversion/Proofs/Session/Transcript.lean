import ContractConversion.Proofs.Session.Events

/-!
# The grammar of a stream

A `Transcript` is what the stream of a session holds: an opening with the first two phases, a block
for each attempt, and perhaps a terminal event. `Transcript.WellFormed` is the grammar:

* there are blocks only behind a complete opening, they are numbered from 1 and there are no more
  than there are attempts;
* a block starts its attempt, reports on it once and then announces artifacts, unless the report
  says why there are none;
* every block but the last one has a report, and it says that the attempt did not pass;
* a session is done only if the report of the last block says that its attempt passed.

At every point of a session the events so far are such a transcript, of which the session writes the
last block (`History.transcribed`).
-/

namespace ContractConversion

/-! ## Transcripts -/

/-- What a stream holds of an attempt. -/
structure Block where
  number : ℕ
  /-- The names of the artifacts to repair. -/
  retrying : List String := []
  report : Option Report := none
  announced : List Artifact := []

namespace Block

/-- The event that starts the block. -/
def start (b : Block) : Event :=
  if b.number = 1 then .phase3Start b.number else .phase4Start b.number b.retrying

/-- The events of the block. -/
def events (b : Block) : List Event :=
  b.start :: (b.report.toList.map Event.validation ++ b.announced.map Event.artifactReady)

/-- The report is about the attempt of the block, and artifacts are announced only behind a report
without an error. -/
structure WellFormed (b : Block) : Prop where
  reported : ∀ report, b.report = some report → report.attempt = b.number
  announced : b.announced ≠ [] → ∃ report, b.report = some report ∧ report.error = none

/-- The report says that the attempt did not pass. -/
def Failed (b : Block) : Prop :=
  ∃ report, b.report = some report ∧ report.passed = false

end Block

/-- Blocks are numbered from 1. -/
def Numbered (blocks : List Block) : Prop :=
  ∀ (i : ℕ) (b : Block), blocks[i]? = some b → b.number = i + 1

lemma numbered_concat {blocks : List Block} {b : Block} :
    Numbered (blocks ++ [b]) ↔ Numbered blocks ∧ b.number = blocks.length + 1 := by
  constructor
  · intro h
    refine ⟨fun i c hc => ?_, ?_⟩
    · obtain ⟨hi, -⟩ := List.getElem?_eq_some_iff.mp hc
      exact h i c (by rwa [List.getElem?_append_left hi])
    · exact h blocks.length b (by simp)
  · rintro ⟨hblocks, hb⟩ i c hc
    rcases Nat.lt_or_ge i blocks.length with hi | hi
    · rw [List.getElem?_append_left hi] at hc
      exact hblocks i c hc
    · rw [List.getElem?_append_right hi] at hc
      cases hi' : i - blocks.length with
      | zero =>
        rw [hi'] at hc
        obtain rfl := Option.some.inj hc
        omega
      | succ k => simp [hi'] at hc

/-- The events are a beginning of the first two phases. -/
def IsOpening (events : List Event) : Prop :=
  ∃ id analysis usage contracts transactions usage', events <+:
    [.phase1Start id, .phase1Complete analysis usage, .phase2Start,
      .phase2Complete contracts transactions usage']

/-- What the stream of a session holds. -/
structure Transcript where
  opening : List Event
  blocks : List Block := []
  terminal : Option Event := none

namespace Transcript

/-- The events of the transcript, in order. -/
def events (t : Transcript) : List Event :=
  t.opening ++ t.blocks.flatMap Block.events ++ t.terminal.toList

/-- The transcript follows the grammar of a session with this many attempts at most. -/
structure WellFormed (attempts : ℕ) (t : Transcript) : Prop where
  opening : IsOpening t.opening
  /-- There are blocks only behind all four events of the opening. -/
  opened : t.blocks ≠ [] → t.opening.length = 4
  bounded : t.blocks.length ≤ attempts
  numbered : Numbered t.blocks
  blocks : ∀ b ∈ t.blocks, b.WellFormed
  failed : ∀ b ∈ t.blocks.dropLast, b.Failed
  terminal : ∀ event, t.terminal = some event → event.isTerminal = true
  done : ∀ result, t.terminal = some (.done result) → result.attempts = t.blocks.length ∧
    ∃ b report, t.blocks.getLast? = some b ∧ b.report = some report ∧ report.passed = true

end Transcript

/-! ## Transcripts that are being written -/

/-- The events follow the grammar, and no terminal one is among them. -/
def Transcribes (attempts : ℕ) (events : List Event) : Prop :=
  ∃ t : Transcript, t.WellFormed attempts ∧ t.terminal = none ∧ t.events = events

/-- The events follow the grammar, and the last block of the transcript is the given one. -/
def WritesBlock (attempts : ℕ) (events : List Event) (b : Block) : Prop :=
  ∃ t : Transcript, ∃ failed, t.WellFormed attempts ∧ t.terminal = none ∧ t.events = events ∧
    t.blocks = failed ++ [b]

lemma transcribes_opening {attempts : ℕ} {events : List Event} (h : IsOpening events) :
    Transcribes attempts events := by
  refine ⟨⟨events, [], none⟩, ⟨h, fun h => absurd rfl h, Nat.zero_le _, ?_, ?_, ?_, ?_, ?_⟩,
    rfl, ?_⟩
  · exact fun i b hb => absurd hb (by simp)
  · exact fun b hb => absurd hb List.not_mem_nil
  · exact fun b hb => absurd hb List.not_mem_nil
  · exact fun event h => absurd h (by simp)
  · exact fun result h => absurd h (by simp)
  · simp [Transcript.events]

namespace WritesBlock

variable {attempts : ℕ} {events : List Event} {b : Block}

lemma transcribes (h : WritesBlock attempts events b) : Transcribes attempts events := by
  obtain ⟨t, failed, hwell, hterminal, hevents, -⟩ := h
  exact ⟨t, hwell, hterminal, hevents⟩

/-- The number of the last block is how many there are. -/
lemma number_eq {t : Transcript} {failed : List Block} (hwell : t.WellFormed attempts)
    (hblocks : t.blocks = failed ++ [b]) : b.number = t.blocks.length := by
  have hnumbered := hwell.numbered
  rw [hblocks] at hnumbered ⊢
  rw [List.length_append, (numbered_concat.mp hnumbered).2, List.length_singleton]

/-- The first attempt starts behind the opening. -/
lemma first {retrying : List String} (hopening : IsOpening events) (hlength : events.length = 4)
    (hpos : 0 < attempts) :
    WritesBlock attempts (events ++ [.phase3Start 1]) { number := 1, retrying } := by
  refine ⟨⟨events, [{ number := 1, retrying }], none⟩, [],
    ⟨hopening, fun _ => hlength, hpos, ?_, ?_, ?_, ?_, ?_⟩, rfl, ?_, rfl⟩
  · have hnil : Numbered [] := fun i b hb => absurd hb (by simp)
    have hfirst : Numbered ([] ++ [({ number := 1, retrying } : Block)]) :=
      numbered_concat.mpr ⟨hnil, rfl⟩
    exact hfirst
  · intro b hb
    obtain rfl := List.mem_singleton.mp hb
    exact ⟨fun report h => absurd h (by simp), fun h => absurd rfl h⟩
  · exact fun b hb => absurd hb List.not_mem_nil
  · exact fun event h => absurd h (by simp)
  · exact fun result h => absurd h (by simp)
  · simp [Transcript.events, Block.events, Block.start]

/-- A further attempt starts behind one that did not pass. -/
lemma next (h : WritesBlock attempts events b) (hfailed : b.Failed) (hlt : b.number < attempts)
    {c : Block} (hnumber : c.number = b.number + 1) (hreport : c.report = none)
    (hannounced : c.announced = []) : WritesBlock attempts (events ++ [c.start]) c := by
  obtain ⟨t, failed, hwell, hterminal, rfl, hblocks⟩ := h
  have hcount := number_eq hwell hblocks
  refine ⟨⟨t.opening, t.blocks ++ [c], none⟩, t.blocks, ⟨hwell.opening, fun _ => ?_, ?_, ?_, ?_, ?_,
    ?_, ?_⟩, rfl, ?_, rfl⟩
  · exact hwell.opened (by simp [hblocks])
  · rw [List.length_append, List.length_singleton]
    omega
  · exact numbered_concat.mpr ⟨hwell.numbered, by rw [hnumber, hcount]⟩
  · intro d hd
    rcases List.mem_append.mp hd with hd | hd
    · exact hwell.blocks d hd
    · obtain rfl := List.mem_singleton.mp hd
      exact ⟨fun report h => absurd (hreport.symm.trans h) (by simp),
        fun h => absurd hannounced h⟩
  · intro d hd
    rw [List.dropLast_concat, hblocks] at hd
    rcases List.mem_append.mp hd with hd | hd
    · refine hwell.failed d ?_
      rwa [hblocks, List.dropLast_concat]
    · obtain rfl := List.mem_singleton.mp hd
      exact hfailed
  · exact fun event h => absurd h (by simp)
  · exact fun result h => absurd h (by simp)
  · simp [Transcript.events, hterminal, Block.events, hreport, hannounced]

/-- An event is added to the block of the current attempt. -/
lemma extend (h : WritesBlock attempts events b) {c : Block} {event : Event}
    (hnumber : c.number = b.number) (hc : c.WellFormed) (hevents : c.events = b.events ++ [event]) :
    WritesBlock attempts (events ++ [event]) c := by
  obtain ⟨t, failed, hwell, hterminal, rfl, hblocks⟩ := h
  refine ⟨⟨t.opening, failed ++ [c], none⟩, failed, ⟨hwell.opening, fun _ => ?_, ?_, ?_, ?_, ?_, ?_,
    ?_⟩, rfl, ?_, rfl⟩
  · exact hwell.opened (by simp [hblocks])
  · have hbounded := hwell.bounded
    rw [hblocks] at hbounded
    rwa [List.length_append] at hbounded ⊢
  · have hnumbered := hwell.numbered
    rw [hblocks] at hnumbered
    obtain ⟨hfailed, hb⟩ := numbered_concat.mp hnumbered
    exact numbered_concat.mpr ⟨hfailed, hnumber.trans hb⟩
  · intro d hd
    rcases List.mem_append.mp hd with hd | hd
    · exact hwell.blocks d (hblocks ▸ List.mem_append_left _ hd)
    · obtain rfl := List.mem_singleton.mp hd
      exact hc
  · intro d hd
    rw [List.dropLast_concat] at hd
    refine hwell.failed d ?_
    rwa [hblocks, List.dropLast_concat]
  · exact fun event h => absurd h (by simp)
  · exact fun result h => absurd h (by simp)
  · simp [Transcript.events, hterminal, hblocks, hevents]

end WritesBlock

/-! ## The transcript of a session -/

/-- The report on artifacts that were validated passes exactly if all of them are valid. -/
lemma passed_ofArtifacts (s : SessionState) :
    (Report.ofArtifacts s.attempt s.artifacts none).passed = s.allValid := by
  have hcount : (s.artifacts.length - s.artifacts.countP Artifact.validated == 0) =
      s.artifacts.all Artifact.validated := by
    have hle : s.artifacts.countP Artifact.validated ≤ s.artifacts.length := List.countP_le_length
    rw [Bool.eq_iff_iff, beq_iff_eq, List.all_eq_true, ← List.countP_eq_length]
    omega
  rw [Report.ofArtifacts, SessionState.allValid, ← hcount]
  rfl

/-- What the events so far are when a session comes to a point. -/
def Point.Transcribed (attempts : ℕ) : Point → List Event → Prop
  | writing event _ next, events =>
    Transcribes attempts events ∧ next.Transcribed attempts (events ++ [event])
  | asking .analysis _, events => ∃ id, events = [.phase1Start id]
  | asking .plan _, events => ∃ id analysis usage,
    events = [.phase1Start id, .phase1Complete analysis usage, .phase2Start]
  | asking (.attempt _ _) s, events | checking _ _ s _ _, events =>
    ∃ retrying, WritesBlock attempts events { number := s.attempt, retrying }
  | announcing _ _ s _, events | succeeding s, events =>
    ∃ b, WritesBlock attempts events b ∧ b.number = s.attempt ∧
      b.report = some (.ofArtifacts s.attempt s.artifacts none)
  | failing _ _, events => Transcribes attempts events

section

variable {settings : Settings} {id : Uuid} {source : String}

/-- The attempts that are left go on behind the opening, or behind an attempt that did not pass. -/
lemma transcribed_attempts {left : ℕ} {s : SessionState} {lastError : String} {events : List Event}
    (h : (s.attempt = 0 ∧ IsOpening events ∧ events.length = 4) ∨
      ∃ b, WritesBlock settings.attempts events b ∧ b.Failed ∧ b.number = s.attempt)
    (hleft : left + s.attempt = settings.attempts) :
    (Point.attempts settings left s lastError).Transcribed settings.attempts events := by
  have hso : Transcribes settings.attempts events := by
    rcases h with ⟨-, hopening, -⟩ | ⟨b, hwrites, -⟩
    · exact transcribes_opening hopening
    · exact hwrites.transcribes
  cases left with
  | zero => exact hso
  | succ left =>
    refine ⟨hso, s.nextAttempt.retryBatch.map (·.name), ?_⟩
    -- the first attempt follows the opening, and any other one a block that did not pass
    rcases h with ⟨hzero, hopening, hlength⟩ | ⟨b, hwrites, hfailed, hnumber⟩
    · have hstart : s.nextAttempt.attemptStart = .phase3Start 1 := by
        rw [SessionState.attemptStart, SessionState.nextAttempt, hzero]
        rfl
      have hattempt : s.nextAttempt.attempt = 1 := congrArg (· + 1) hzero
      rw [hstart, hattempt]
      exact .first hopening hlength (by omega)
    · have hattempt : s.nextAttempt.attempt = b.number + 1 := congrArg (· + 1) hnumber.symm
      let c : Block :=
        { number := s.nextAttempt.attempt, retrying := s.nextAttempt.retryBatch.map (·.name) }
      have hnext : WritesBlock settings.attempts (events ++ [c.start]) c :=
        hwrites.next hfailed (by omega) hattempt rfl rfl
      exact hnext

/-- **At every point of a session its events follow the grammar.** -/
theorem History.transcribed {point : Point} {log : List Step}
    (h : History settings id source point log) :
    point.Transcribed settings.attempts (acceptedIn log) := by
  induction h with
  | opened => exact ⟨transcribes_opening ⟨id, .null, {}, [], [], {}, [_, _, _, _], rfl⟩, id, rfl⟩
  | wrote h ih => exact ih.2
  | analysed completion elapsed h hs ih =>
    obtain ⟨id', hevents⟩ := ih
    rw [acceptedIn_exchange, hevents]
    refine ⟨transcribes_opening ?_, transcribes_opening ?_, id', _, _, rfl⟩
    · exact ⟨id', completion.data, completion.usage, [], [], {}, [_, _, _], rfl⟩
    · exact ⟨id', completion.data, completion.usage, [], [], {}, [_, _], rfl⟩
  | notAnalysed h ih =>
    obtain ⟨id', hevents⟩ := ih
    rw [acceptedIn_exchange, hevents]
    exact transcribes_opening ⟨id', .null, {}, [], [], {}, [_, _, _], rfl⟩
  | @planned s s' log plan completion elapsed h hplan hs ih =>
    obtain ⟨id', analysis, usage, hevents⟩ := ih
    obtain ⟨-, -, hzero, -⟩ := h.tied
    subst hs
    rw [acceptedIn_exchange, hevents]
    refine ⟨transcribes_opening ⟨id', analysis, usage, [], [], {}, [_], rfl⟩,
      transcribed_attempts (Or.inl ⟨hzero, ?_, rfl⟩) (congrArg (settings.attempts + ·) hzero)⟩
    exact ⟨id', analysis, usage, plan.contracts, plan.transactions, completion.usage, [], rfl⟩
  | notPlanned h hplan ih =>
    obtain ⟨id', analysis, usage, hevents⟩ := ih
    rw [acceptedIn_exchange, hevents]
    exact transcribes_opening ⟨id', analysis, usage, [], [], {}, [_], rfl⟩
  | applied h happly ih =>
    obtain ⟨retrying, hwrites⟩ := ih
    obtain ⟨htied, -, -, -, -⟩ := h.tied
    obtain ⟨completion, rfl, htakes⟩ := takes_of_applyAnswer htied.wellFormed happly
    rw [acceptedIn_exchange]
    exact ⟨retrying, htakes.attempt.symm ▸ hwrites⟩
  | @spent s log answer fault left lastError elapsed h happly ih =>
    -- the report has an error and does not pass, so the next attempt may start behind it
    obtain ⟨retrying, hwrites⟩ := ih
    obtain ⟨-, -, -, hleft, -⟩ := h.tied
    rw [acceptedIn_exchange]
    let report := Report.ofArtifacts s.attempt s.artifacts (some fault.message)
    refine ⟨hwrites.transcribes, transcribed_attempts (Or.inr
      ⟨{ number := s.attempt, retrying, report := some report }, ?_, ⟨report, rfl, rfl⟩, rfl⟩)
      hleft⟩
    refine hwrites.extend rfl ⟨fun r hr => ?_, fun h => absurd rfl h⟩ rfl
    obtain rfl := Option.some.inj hr
    rfl
  | unmerged h happly ih =>
    obtain ⟨retrying, hwrites⟩ := ih
    rw [acceptedIn_exchange]
    exact hwrites.transcribes
  | skipped h hdue ih => exact ih
  | judged h hdue ih =>
    rw [acceptedIn_validated, acceptedIn_looked]
    exact ih
  | @checked s s' log left lastError checked h hs ih =>
    obtain ⟨retrying, hwrites⟩ := ih
    subst hs
    let report := Report.ofArtifacts s.attempt checked.reverse none
    refine ⟨hwrites.transcribes, { number := s.attempt, retrying, report := some report },
      hwrites.extend rfl ⟨fun r hr => ?_, fun h => absurd rfl h⟩ rfl, rfl, rfl⟩
    obtain rfl := Option.some.inj hr
    rfl
  | @announced s log left lastError a todo h ha ih =>
    obtain ⟨b, hwrites, hnumber, hreport⟩ := ih
    rw [acceptedIn_recorded, acceptedIn_announced]
    refine ⟨{ b with announced := b.announced ++ [a] }, hwrites.extend rfl ⟨?_, fun _ => ?_⟩ ?_,
      hnumber, hreport⟩
    · intro r hr
      obtain rfl := Option.some.inj (hreport.symm.trans hr)
      exact hnumber.symm
    · exact ⟨_, hreport, rfl⟩
    · simp [Block.events, Block.start]
  | passedOver h ha ih =>
    rw [acceptedIn_passedOver]
    exact ih
  | succeeded h hvalid ih => exact ih
  | @retried s log left lastError h hvalid ih =>
    obtain ⟨b, hwrites, hnumber, hreport⟩ := ih
    obtain ⟨-, -, hleft, -, -⟩ := h.tied
    -- the session goes on because its artifacts are not all valid, and the report says the same
    have hfailed : b.Failed := ⟨_, hreport, (passed_ofArtifacts s).trans hvalid⟩
    exact transcribed_attempts (Or.inr ⟨b, hwrites, hfailed, hnumber⟩) hleft

/-- Whatever the point, the events so far follow the grammar. -/
lemma Point.Transcribed.transcribes {attempts : ℕ} {point : Point} {events : List Event}
    (h : point.Transcribed attempts events) : Transcribes attempts events := by
  rcases point with ⟨event, s, next⟩ | ⟨_ | _ | ⟨left, lastError⟩, s⟩ |
    ⟨left, lastError, s, checked, todo⟩ | ⟨left, lastError, s, todo⟩ | ⟨s, failure⟩ | s
  · exact h.1
  · obtain ⟨id', rfl⟩ := h
    exact transcribes_opening ⟨id', .null, {}, [], [], {}, [_, _, _], rfl⟩
  · obtain ⟨id', analysis, usage, rfl⟩ := h
    exact transcribes_opening ⟨id', analysis, usage, [], [], {}, [_], rfl⟩
  · obtain ⟨retrying, hwrites⟩ := h
    exact hwrites.transcribes
  · obtain ⟨retrying, hwrites⟩ := h
    exact hwrites.transcribes
  · obtain ⟨b, hwrites, -⟩ := h
    exact hwrites.transcribes
  · exact h
  · obtain ⟨b, hwrites, -⟩ := h
    exact hwrites.transcribes

/-- A terminal event may stand behind any events that follow the grammar, if it is not a result. -/
lemma Transcribes.terminate {attempts : ℕ} {events : List Event} {event : Event}
    (h : Transcribes attempts events) (hterminal : event.isTerminal = true)
    (hdone : ∀ result, event ≠ .done result) :
    ∃ t : Transcript, t.WellFormed attempts ∧ t.events = events ++ [event] := by
  obtain ⟨t, hwell, hnone, rfl⟩ := h
  refine ⟨{ t with terminal := some event }, ⟨hwell.opening, hwell.opened, hwell.bounded,
    hwell.numbered, hwell.blocks, hwell.failed, ?_, ?_⟩, ?_⟩
  · rintro e he
    obtain rfl := Option.some.inj he
    exact hterminal
  · exact fun result hresult => absurd (Option.some.inj hresult) (hdone result)
  · simp [Transcript.events, hnone]

/-- A result may stand behind a block that passed, and counts the blocks. -/
lemma WritesBlock.terminate {attempts : ℕ} {events : List Event} {b : Block} {report : Report}
    {result : ConversionResult} (h : WritesBlock attempts events b)
    (hreport : b.report = some report) (hpassed : report.passed = true)
    (hattempts : result.attempts = b.number) :
    ∃ t : Transcript, t.WellFormed attempts ∧ t.events = events ++ [.done result] := by
  obtain ⟨t, failed, hwell, hnone, rfl, hblocks⟩ := h
  refine ⟨{ t with terminal := some (.done result) }, ⟨hwell.opening, hwell.opened, hwell.bounded,
    hwell.numbered, hwell.blocks, hwell.failed, ?_, ?_⟩, ?_⟩
  · rintro e he
    obtain rfl := Option.some.inj he
    rfl
  · intro result' hresult
    obtain rfl := Event.done.inj (Option.some.inj hresult)
    have hcount := number_eq hwell hblocks
    refine ⟨hattempts.trans hcount, b, report, ?_, hreport, hpassed⟩
    rw [hblocks, List.getLast?_concat]
  · simp [Transcript.events, hnone]

/-- **The stream of a session follows the grammar**, whatever its surroundings answer and wherever
it is cut off. -/
theorem Scene.transcript_of_reached {σ : Scene} (h : Reached settings id source σ) :
    ∃ t : Transcript, t.WellFormed settings.attempts ∧ t.events = σ.events := by
  obtain ⟨point, log, hhistory, hlog⟩ := history_of_reached h
  have htranscribes := hhistory.transcribed.transcribes
  rcases (events_of_reached h).2 with hevents | ⟨halt, event, -, -, hterminal, hevents⟩
  · rw [hevents, hlog]
    obtain ⟨t, hwell, -, ht⟩ := htranscribes
    exact ⟨t, hwell, ht⟩
  · by_cases hdone : ∃ result, event = .done result
    · obtain ⟨result, rfl⟩ := hdone
      have hmem : .done result ∈ σ.events := by simp [hevents]
      obtain ⟨hhalted, -⟩ := completed_of_done h hmem
      obtain ⟨s, before, entry, time, hbefore, hsteps, rfl⟩ := hhalted.completed_inv
      obtain ⟨b, hwrites, hnumber, hreport⟩ := hbefore.transcribed
      rw [hevents, hsteps, acceptedIn_recorded]
      refine hwrites.terminate hreport ?_ hnumber.symm
      rw [passed_ofArtifacts]
      exact hbefore.tied.2
    · rw [hevents, hlog]
      exact htranscribes.terminate hterminal fun result heq => hdone ⟨result, heq⟩

end

end ContractConversion
