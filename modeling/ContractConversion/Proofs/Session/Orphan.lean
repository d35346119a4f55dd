import ContractConversion.Proofs.Session.Story

/-!
# A course whose reader is gone

Without its reader a course learns at the next event or look that the reader is gone, and what it
does from there is fixed: `Course.orphaned` follows it to its end, or to the next call to the
outside. A course `Heeds` its reader if each call stands right behind a look, and if it is
cancelled wherever it learns that the reader is gone. The course of a session does
(`Course.ofSource_heeds`).

So without its reader a session is cancelled (`Course.Heeds.orphaned_of_not_silent`), unless it has
only records left to write (`Course.Heeds.orphaned_of_silent`).
-/

namespace ContractConversion
namespace Course

/-- How a course ends without its reader; `none` if it makes a call first. The clock shows `time`,
and `noted` are the names that were announced. -/
def orphaned (time : Time.Instant) : Course → List String → Option Outcome
  | .finish ending, _ => some (Halt.ended ending).outcome
  | .emit _ next, noted => (next .disconnected).orphaned time noted
  | .announce a next, noted =>
    if a.validated = true ∧ a.name ∉ noted then
      (next .disconnected).orphaned time (a.name :: noted)
    else (next .nothing).orphaned time noted
  | .look next, noted => (next true).orphaned time noted
  | .complete _ _, _ => none
  | .validate _ _, _ => none
  | .record _ next, noted => next.orphaned time noted
  | .now next, noted => (next time).orphaned time noted

/-- The course only records something, and ends with this outcome. -/
def EndsWith (outcome : Outcome) : Course → Prop
  | .finish ending => (Halt.ended ending).outcome = outcome
  | .record _ next => next.EndsWith outcome
  | _ => False

/-- The course has written its last event: it records, passes over artifacts that are not valid or
were announced before, and ends. -/
def Silent (noted : List String) : Course → Prop
  | .finish _ => True
  | .announce a next =>
    ¬ (a.validated = true ∧ a.name ∉ noted) ∧ (next .nothing).Silent noted
  | .record _ next => next.Silent noted
  | .now next => ∀ time, (next time).Silent noted
  | _ => False

/-- The course has more to tell, whatever was announced. -/
def Loud (rest : Course) : Prop :=
  ∀ noted, ¬ rest.Silent noted

/-- The course heeds its reader: it calls only right behind a look, and it is cancelled at each
event and each look that tells it that the reader is gone. Behind a completion it fails or has more
to tell, and behind a validation it has more to tell. -/
def Heeds : Course → Prop
  | .finish ending => ending ≠ .cancelled
  | .emit _ next =>
    (next .disconnected).EndsWith .cancelled ∧
      ∀ answer, answer ≠ .disconnected → (next answer).outside? = none ∧ (next answer).Heeds
  | .announce _ next =>
    (next .disconnected).EndsWith .cancelled ∧
      ∀ answer, answer ≠ .disconnected → (next answer).outside? = none ∧ (next answer).Heeds
  | .look next => (next true).EndsWith .cancelled ∧ (next false).Heeds
  | .complete _ next => ∀ answer,
    (∀ elapsed, (next answer elapsed).outside? = none ∧ (next answer elapsed).Heeds) ∧
      ((∀ elapsed, (next answer elapsed).EndsWith .failed) ∨
        ∀ elapsed, (next answer elapsed).Loud)
  | .validate _ next => ∀ answer,
    ((next answer).outside? = none ∧ (next answer).Heeds) ∧ (next answer).Loud
  | .record _ next => next.outside? = none ∧ next.Heeds
  | .now next => ∀ time,
    ((next time).outside? = none ∧ (next time).Heeds) ∧ ∀ noted, (next time).Silent noted

/-! ## The end of a course whose reader is gone -/

variable {time : Time.Instant} {rest : Course} {noted : List String} {outcome : Outcome}

/-- A course that only records needs no reader. -/
lemma EndsWith.orphaned_eq (h : rest.EndsWith outcome) (noted : List String) :
    rest.orphaned time noted = some outcome := by
  induction rest with
  | finish ending => exact congrArg some h
  | record entry next ih => exact ih h
  | _ => exact h.elim

/-- A course that is followed to its end makes no call first. -/
lemma outside?_of_orphaned (h : rest.orphaned time noted = some outcome) :
    rest.outside? = none := by
  cases rest with
  | complete | validate => cases h
  | _ => rfl

/-- **A course that has written its last event** is not cancelled. -/
lemma Heeds.orphaned_of_silent (h : rest.Heeds) (hsilent : rest.Silent noted)
    (time : Time.Instant) :
    rest.orphaned time noted = some .completed ∨ rest.orphaned time noted = some .failed := by
  induction rest with
  | finish ending =>
    cases ending with
    | completed result => exact Or.inl rfl
    | failed failure phase => exact Or.inr rfl
    | cancelled => exact absurd rfl h
  | announce a next ih =>
    rw [orphaned, if_neg hsilent.1]
    exact ih .nothing (h.2 .nothing (by decide)).2 hsilent.2
  | record entry next ih => exact ih h.2 hsilent
  | now next ih => exact ih time (h time).1.2 (hsilent time)
  | _ => exact hsilent.elim

/-- **A course that has more to tell** is cancelled, if it is not in a call. -/
lemma Heeds.orphaned_of_not_silent (h : rest.Heeds) (hidle : rest.outside? = none)
    (hmore : ¬ rest.Silent noted) : rest.orphaned time noted = some .cancelled := by
  induction rest with
  | finish ending => exact absurd trivial hmore
  | emit event next => exact h.1.orphaned_eq noted
  | announce a next ih =>
    rw [orphaned]
    split
    · exact h.1.orphaned_eq _
    · next hold =>
      obtain ⟨hnext, hheeds⟩ := h.2 .nothing (by decide)
      exact ih .nothing hheeds hnext fun hsilent => hmore ⟨hold, hsilent⟩
  | look next => exact h.1.orphaned_eq noted
  | complete request next => cases hidle
  | validate code next => cases hidle
  | record entry next ih => exact ih h.2 h.1 hmore
  | now next => exact absurd (fun time => (h time).2 noted) hmore

/-! ## A session heeds its reader -/

/-- The course is not in a call, and heeds its reader. -/
def Goes (rest : Course) : Prop :=
  rest.outside? = none ∧ rest.Heeds

section

variable {settings : Settings} {source : String} {s : SessionState} {next : Course}

lemma cancel_endsWith (s : SessionState) : (cancel s).EndsWith .cancelled :=
  rfl

lemma fail_endsWith (s : SessionState) (failure : SessionFailure) :
    (fail s failure).EndsWith .failed :=
  rfl

lemma fail_goes (s : SessionState) (failure : SessionFailure) : (fail s failure).Goes :=
  ⟨rfl, rfl, nofun⟩

lemma succeed_goes (s : SessionState) : (succeed s).Goes :=
  ⟨rfl, fun _ => ⟨⟨rfl, rfl, nofun⟩, fun _ => trivial⟩⟩

lemma tell_goes {event : Event} (h : next.Goes) : (tell s event next).Goes := by
  refine ⟨rfl, cancel_endsWith s, fun answer hanswer => ?_⟩
  cases answer with
  | disconnected => exact absurd rfl hanswer
  | _ => exact h

lemma tell_loud {event : Event} : (tell s event next).Loud :=
  fun _ => id

lemma checkpoint_goes (h : next.Heeds) : (checkpoint s next).Goes :=
  ⟨rfl, cancel_endsWith s, h⟩

/-- A call whose answer ends the session with a failure, or lets it go on and tell more. -/
lemma call_heeds {request : CompletionRequest} {attempt : Option ℕ}
    {next : SessionState → Except OracleFault Completion → Course}
    (h : ∀ s answer, (next s answer).Goes ∧
      ((next s answer).EndsWith .failed ∨ (next s answer).Loud)) :
    (call s request attempt next).Heeds := by
  intro answer
  refine ⟨fun elapsed => ⟨rfl, (h _ answer).1⟩, ?_⟩
  exact (h _ answer).2.imp (fun hfails _ => hfails) fun hloud _ => hloud

lemma validateFrom_goes {checked todo : List Artifact} {next : SessionState → Course}
    (h : ∀ s, (next s).Goes ∧ (next s).Loud) :
    (validateFrom s checked todo next).Goes ∧ (validateFrom s checked todo next).Loud := by
  induction todo generalizing checked with
  | nil => exact h _
  | cons a rest ih =>
    rw [validateFrom]
    split
    · exact ⟨checkpoint_goes fun answer => ih, fun _ => id⟩
    · exact ih

lemma announceAll_goes {todo : List Artifact} (h : next.Goes) : (announceAll s todo next).Goes := by
  induction todo with
  | nil => exact h
  | cons a rest ih =>
    refine ⟨rfl, cancel_endsWith s, fun answer hanswer => ?_⟩
    cases answer with
    | disconnected => exact absurd rfl hanswer
    | wrote => exact ⟨rfl, ih⟩
    | _ => exact ih

/-- An attempt that is settled has its report to tell. -/
lemma settle_goes {next : SessionState → Course} (h : ∀ s, (next s).Goes) :
    (settle s next).Goes ∧ (settle s next).Loud := by
  refine validateFrom_goes fun s => ⟨tell_goes (announceAll_goes ?_), tell_loud⟩
  split
  · exact succeed_goes s
  · exact h s

lemma attempts_goes {left : ℕ} {lastError : String} :
    (attempts settings source left s lastError).Goes := by
  induction left generalizing s lastError with
  | zero => exact fail_goes _ _
  | succ left ih =>
    refine tell_goes (checkpoint_goes (call_heeds fun s answer => ?_))
    split
    · exact ⟨fail_goes _ _, Or.inl (fail_endsWith _ _)⟩
    · exact ⟨tell_goes ih, Or.inr tell_loud⟩
    · obtain ⟨hgoes, hloud⟩ := settle_goes fun s => ih
      exact ⟨hgoes, Or.inr hloud⟩

lemma plan_goes : (plan settings source s).Goes := by
  unfold plan
  refine tell_goes (checkpoint_goes (call_heeds fun s answer => ?_))
  split
  · exact ⟨fail_goes _ _, Or.inl (fail_endsWith _ _)⟩
  · exact ⟨tell_goes attempts_goes, Or.inr tell_loud⟩

/-- **A session heeds its reader.** -/
theorem ofSource_heeds {id : Uuid} : (ofSource settings id source).Heeds := by
  rw [ofSource, analyse]
  refine tell_goes (checkpoint_goes (call_heeds fun s answer => ?_))
  cases answer with
  | error fault => exact ⟨fail_goes _ _, Or.inl (fail_endsWith _ _)⟩
  | ok completion => exact ⟨tell_goes plan_goes, Or.inr tell_loud⟩

end
end Course
end ContractConversion
