import ContractConversion.Proofs.Session.Scene
import ContractConversion.Proofs.Stream.Emitter

/-!
# What the log of a session says

The steps of a session's task, the last first, are its log. It determines what the stream accepted
(`acceptedIn`) and which names were announced (`notedIn`), as long as the task runs: the emitter
follows the log (`Emitter.Follows`). It also has the entries of the audit trail (`entriesIn`). One
lemma for each thing that the task does with its emitter says that it still does afterwards.
-/

namespace ContractConversion

/-! ## Views of a log -/

namespace Step

/-- The event that the stream accepted at this step. -/
def accepted? : Step → Option Event
  | .emitted event (some .wrote) => some event
  | .announced a (some .wrote) => some (.artifactReady a)
  | _ => none

/-- The name that was noted as announced at this step. -/
def noted? : Step → Option String
  | .announced a _ => if a.validated then some a.name else none
  | _ => none

/-- The entry that is recorded at this step. -/
def recorded? : Step → Option AuditEntry
  | .recorded entry => some entry
  | _ => none

/-- At this step the task learnt that the reader is gone. -/
def seesGone : Step → Bool
  | .emitted _ (some .disconnected) => true
  | .announced _ (some .disconnected) => true
  | .looked gone => gone
  | _ => false

end Step

/-- The events that the stream accepted along a log, the oldest first. -/
def acceptedIn : List Step → List Event
  | [] => []
  | step :: log => acceptedIn log ++ step.accepted?.toList

/-- The names noted as announced along a log. -/
def notedIn (log : List Step) : List String :=
  log.filterMap Step.noted?

/-- The entries that are recorded along a log, the last first. -/
def entriesIn (log : List Step) : List AuditEntry :=
  log.filterMap Step.recorded?

lemma entriesIn_cons_of_none {step : Step} (h : step.recorded? = none) (log : List Step) :
    entriesIn (step :: log) = entriesIn log :=
  List.filterMap_cons_none h

lemma acceptedIn_cons_of_none {step : Step} (h : step.accepted? = none) (log : List Step) :
    acceptedIn (step :: log) = acceptedIn log := by
  rw [acceptedIn, h, Option.toList_none, List.append_nil]

lemma acceptedIn_cons_of_some {step : Step} {event : Event} (h : step.accepted? = some event)
    (log : List Step) : acceptedIn (step :: log) = acceptedIn log ++ [event] := by
  rw [acceptedIn, h, Option.toList_some]

lemma acceptedIn_append_of_quiet {tail : List Step} (h : ∀ step ∈ tail, step.accepted? = none)
    (log : List Step) : acceptedIn (tail ++ log) = acceptedIn log := by
  induction tail with
  | nil => rfl
  | cons step rest ih =>
    rw [List.cons_append, acceptedIn_cons_of_none (h step List.mem_cons_self)]
    exact ih fun s hs => h s (List.mem_cons_of_mem _ hs)

/-! ## The emitter follows the log -/

/-- Before the terminal event is handed in, the stream holds what was accepted along the log, and
the reader is gone if the task learnt so. -/
structure Emitter.Holds (e : Emitter) (log : List Step) : Prop where
  history : e.channel.history = acceptedIn log
  unclaimed : e.claimed = false
  gone : ∀ step ∈ log, step.seesGone = true → e.channel.connected = false

/-- While the task runs, the emitter also notes exactly the names that were announced. -/
structure Emitter.Follows (e : Emitter) (log : List Step) : Prop extends e.Holds log where
  sent : ∀ n, n ∈ e.sent ↔ n ∈ notedIn log

/-- A step that writes nothing and is no news of the reader. -/
lemma Emitter.Holds.cons {e : Emitter} {log : List Step} {step : Step} (hh : e.Holds log)
    (ha : step.accepted? = none) (hg : step.seesGone = true → e.channel.connected = false) :
    e.Holds (step :: log) := by
  refine ⟨?_, hh.unclaimed, fun s hs hgone => ?_⟩
  · rw [acceptedIn_cons_of_none ha]
    exact hh.history
  · rcases List.mem_cons.mp hs with rfl | hs
    · exact hg hgone
    · exact hh.gone s hs hgone

namespace Emitter.Follows

variable {e e' : Emitter} {log : List Step}

/-- A step that writes nothing. -/
lemma quiet {step : Step} (hf : e.Follows log) (ha : step.accepted? = none)
    (hn : ∀ n, step.noted? = some n → n ∈ notedIn log)
    (hg : step.seesGone = true → e.channel.connected = false) : e.Follows (step :: log) := by
  refine ⟨hf.toHolds.cons ha hg, fun n => ?_⟩
  rw [hf.sent]
  constructor
  · intro hmem
    obtain ⟨s, hs, hname⟩ := List.mem_filterMap.mp hmem
    exact List.mem_filterMap.mpr ⟨s, List.mem_cons_of_mem _ hs, hname⟩
  · intro hmem
    obtain ⟨s, hs, hname⟩ := List.mem_filterMap.mp hmem
    rcases List.mem_cons.mp hs with rfl | hs
    · exact hn n hname
    · exact List.mem_filterMap.mpr ⟨s, hs, hname⟩

/-- An event was handed to the channel. -/
lemma emitted {event : Event} {answer : Emitted} (hf : e.Follows log)
    (h : e.put event = (e', answer)) (ha : answer ≠ .blocked) :
    (answer = .wrote ∨ answer = .disconnected) ∧
      e'.Follows (.emitted event (some answer) :: log) := by
  rcases put_cases h with ⟨rfl, hc, rfl⟩ | ⟨rfl, hc, rfl⟩ | ⟨rfl, -⟩
  · refine ⟨Or.inl rfl, ⟨?_, hf.unclaimed, fun s hs hgone => ?_⟩, hf.sent⟩
    · rw [acceptedIn_cons_of_some rfl, ← hf.history]
    · rcases List.mem_cons.mp hs with rfl | hs
      · exact absurd hgone (by simp [Step.seesGone])
      · exact hf.gone s hs hgone
  · exact ⟨Or.inr rfl, hf.quiet rfl (by simp [Step.noted?]) fun _ => hc⟩
  · exact absurd rfl ha

/-- An artifact is noted before its event is handed to the channel. -/
lemma noting {a : Artifact} (hf : e.Follows log) (hv : a.validated = true) :
    ({ e with sent := a.name :: e.sent } : Emitter).Follows (.announced a none :: log) := by
  have hh : ({ e with sent := a.name :: e.sent } : Emitter).Holds log :=
    ⟨hf.history, hf.unclaimed, hf.gone⟩
  refine ⟨hh.cons rfl (by simp [Step.seesGone]), fun n => ?_⟩
  simp [notedIn, Step.noted?, hv, hf.sent]

/-- The event of an artifact that is noted was handed to the channel. -/
lemma announced {a : Artifact} {answer : Emitted} (hf : e.Follows (.announced a none :: log))
    (h : e.put (.artifactReady a) = (e', answer)) (ha : answer ≠ .blocked) :
    (answer = .wrote ∨ answer = .disconnected) ∧
      e'.Follows (.announced a (some answer) :: log) := by
  have hhistory : e.channel.history = acceptedIn log := by
    rw [hf.history, acceptedIn_cons_of_none rfl]
  rcases put_cases h with ⟨rfl, hc, rfl⟩ | ⟨rfl, hc, rfl⟩ | ⟨rfl, -⟩
  · refine ⟨Or.inl rfl, ⟨?_, hf.unclaimed, fun s hs hgone => ?_⟩, hf.sent⟩
    · rw [acceptedIn_cons_of_some rfl, ← hhistory]
    · rcases List.mem_cons.mp hs with rfl | hs
      · exact absurd hgone (by simp [Step.seesGone])
      · exact hf.gone s (List.mem_cons_of_mem _ hs) hgone
  · refine ⟨Or.inr rfl, ⟨?_, hf.unclaimed, fun _ _ _ => hc⟩, hf.sent⟩
    rw [acceptedIn_cons_of_none rfl]
    exact hhistory
  · exact absurd rfl ha

end Emitter.Follows

end ContractConversion
