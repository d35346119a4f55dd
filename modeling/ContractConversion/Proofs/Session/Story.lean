import ContractConversion.Proofs.Session.History
import Mathlib.Tactic.ByContra

/-!
# The story of a session

A session whose reader stays, in surroundings that answer every call in a fixed way, has one story:
the progress events that it writes, one after the other, and how it ends, unless one of its calls
never returns. `Course.story` reads it off the course, without a word on buffers, waiting or time.

How long a call took is the one thing that surroundings do not fix. A session only records it, so
its story does not depend on it (`ofSource_untimed`).
-/

namespace ContractConversion

/-- What a session tells, and how it ends; `none` if it hangs. -/
structure Story where
  events : List Event := []
  halt? : Option Halt := none

namespace Story

/-- The story that tells an event first. -/
def cons (event : Event) (s : Story) : Story :=
  { s with events := event :: s.events }

/-- The story of which some events have been told already. -/
def after (told : List Event) (s : Story) : Story :=
  { s with events := told ++ s.events }

lemma after_cons (told : List Event) (event : Event) (s : Story) :
    (s.cons event).after told = s.after (told ++ [event]) := by
  rw [cons, after, after, List.append_assoc]
  rfl

end Story

namespace Course

/-- The story of a course in surroundings that answered so many completion calls and validations
before; `noted` are the names that were announced. -/
def story (outside : Surroundings) : Course → ℕ → ℕ → List String → Story
  | .finish ending, _, _, _ => { halt? := some (.ended ending) }
  | .emit event next, calls, validations, noted =>
    ((next .wrote).story outside calls validations noted).cons event
  | .announce a next, calls, validations, noted =>
    let noted' := if a.validated then a.name :: noted else noted
    if a.validated = true ∧ a.name ∉ noted then
      ((next .wrote).story outside calls validations noted').cons (.artifactReady a)
    else (next .nothing).story outside calls validations noted'
  | .look next, calls, validations, noted => (next false).story outside calls validations noted
  | .complete request next, calls, validations, noted =>
    match outside.complete (calls + 1) request with
    | .answers answer => (next answer 0).story outside (calls + 1) validations noted
    | .hangs => {}
    | .panics => { halt? := some .panicked }
  | .validate code next, calls, validations, noted =>
    match outside.validate (validations + 1) code with
    | .answers answer => (next answer).story outside calls (validations + 1) noted
    | .hangs => {}
    | .panics => { halt? := some .panicked }
  | .record _ next, calls, validations, noted => next.story outside calls validations noted
  | .now next, calls, validations, noted =>
    (next outside.time).story outside calls validations noted

/-- How long a call took changes nothing but what is recorded right after it. -/
def Untimed : Course → Prop
  | .finish _ => True
  | .emit _ next => ∀ answer, (next answer).Untimed
  | .announce _ next => ∀ answer, (next answer).Untimed
  | .look next => ∀ gone, (next gone).Untimed
  | .complete _ next =>
    (∀ answer elapsed, (next answer elapsed).Untimed) ∧
      ∀ answer, ∃ (entry : ℕ → AuditEntry) (rest : Course),
        ∀ elapsed, next answer elapsed = .record (entry elapsed) rest
  | .validate _ next => ∀ answer, (next answer).Untimed
  | .record _ next => next.Untimed
  | .now next => ∀ time, (next time).Untimed

/-- The story does not depend on how long a call took. -/
lemma Untimed.story_eq {request : CompletionRequest}
    {next : Except OracleFault Completion → ℕ → Course} (h : (complete request next).Untimed)
    (outside : Surroundings) (answer : Except OracleFault Completion) (elapsed : ℕ) :
    (next answer elapsed).story outside = (next answer 0).story outside := by
  obtain ⟨entry, rest, hnext⟩ := h.2 answer
  funext calls validations noted
  rw [hnext elapsed, hnext 0, story, story]

/-! ## The course of a session is untimed -/

section

variable {settings : Settings} {source : String} {s : SessionState} {next : Course}

lemma cancel_untimed (s : SessionState) : (cancel s).Untimed :=
  trivial

lemma tell_untimed {event : Event} (h : next.Untimed) : (tell s event next).Untimed := by
  intro answer
  cases answer with
  | disconnected => exact cancel_untimed s
  | _ => exact h

lemma checkpoint_untimed (h : next.Untimed) : (checkpoint s next).Untimed := by
  intro gone
  cases gone with
  | true => exact cancel_untimed s
  | false => exact h

lemma call_untimed {request : CompletionRequest} {attempt : Option ℕ}
    {next : SessionState → Except OracleFault Completion → Course}
    (h : ∀ s answer, (next s answer).Untimed) : (call s request attempt next).Untimed :=
  ⟨fun answer _ => h _ answer, fun _ => ⟨_, _, fun _ => rfl⟩⟩

lemma validateFrom_untimed {checked todo : List Artifact} {next : SessionState → Course}
    (h : ∀ s, (next s).Untimed) : (validateFrom s checked todo next).Untimed := by
  induction todo generalizing checked with
  | nil => exact h _
  | cons a rest ih =>
    rw [validateFrom]
    split
    · exact checkpoint_untimed fun _ => ih
    · exact ih

lemma announceAll_untimed {todo : List Artifact} (h : next.Untimed) :
    (announceAll s todo next).Untimed := by
  induction todo with
  | nil => exact h
  | cons a rest ih =>
    intro answer
    cases answer with
    | wrote => exact ih
    | disconnected => exact cancel_untimed s
    | _ => exact ih

lemma settle_untimed {next : SessionState → Course} (h : ∀ s, (next s).Untimed) :
    (settle s next).Untimed := by
  refine validateFrom_untimed fun s => tell_untimed (announceAll_untimed ?_)
  split
  · exact fun time => trivial
  · exact h s

lemma attempts_untimed {left : ℕ} {lastError : String} :
    (attempts settings source left s lastError).Untimed := by
  induction left generalizing s lastError with
  | zero => exact trivial
  | succ left ih =>
    refine tell_untimed (checkpoint_untimed (call_untimed fun s answer => ?_))
    split
    · exact trivial
    · exact tell_untimed ih
    · exact settle_untimed fun s => ih

lemma plan_untimed : (plan settings source s).Untimed := by
  unfold plan
  refine tell_untimed (checkpoint_untimed (call_untimed fun s answer => ?_))
  split
  · exact trivial
  · exact tell_untimed attempts_untimed

/-- **What a session tells does not depend on how long its calls take.** -/
theorem ofSource_untimed {id : Uuid} : (ofSource settings id source).Untimed := by
  rw [ofSource, Untimed, analyse]
  refine tell_untimed (checkpoint_untimed (call_untimed fun s answer => ?_))
  cases answer with
  | error fault => exact trivial
  | ok completion => exact tell_untimed plan_untimed

end

/-! ## Only progress is told -/

/-- An announcement notes the name of a valid artifact. -/
lemma notedIn_announced (a : Artifact) (answer : Option Emitted) (log : List Step) :
    notedIn (.announced a answer :: log) =
      if a.validated then a.name :: notedIn log else notedIn log := by
  rw [notedIn, List.filterMap_cons, Step.noted?]
  cases a.validated <;> rfl

/-- **A course tells progress only**, if its end is known at all. -/
lemma plain_of_story {outside : Surroundings} {Q : List Step → Halt → Prop} {rest : Course}
    {log : List Step} (h : rest.Ends Q log) (calls validations : ℕ) :
    ∀ event ∈ (rest.story outside calls validations (notedIn log)).events,
      event.isTerminal = false := by
  -- the names that the story takes for announced are those of the log
  induction rest generalizing log calls validations with
  | finish ending => exact fun event hevent => absurd hevent List.not_mem_nil
  | emit event next ih =>
    intro told htold
    rcases List.mem_cons.mp htold with rfl | htold
    · exact h.1
    · exact ih .wrote (h.2.2 .wrote (Or.inl rfl)) calls validations told htold
  | announce a next ih =>
    intro told htold
    rw [story] at htold
    split at htold
    · next hnew =>
      have hrest := ih .wrote (h.2 .wrote hnew) calls validations told
      rw [notedIn_announced] at hrest
      rcases List.mem_cons.mp htold with rfl | htold
      · rfl
      · exact hrest htold
    · next hold =>
      have hnothing : Announces log a .nothing := by
        rw [Announces]
        by_contra hboth
        obtain ⟨hv, hn⟩ := not_or.mp hboth
        exact hold ⟨by simpa using hv, hn⟩
      have hrest := ih .nothing (h.2 .nothing hnothing) calls validations told
      rw [notedIn_announced] at hrest
      exact hrest htold
  | look next ih => exact ih false (h false) calls validations
  | complete request next ih =>
    rw [story]
    split
    · next answer _ => exact ih answer 0 (h.2.2 answer 0) (calls + 1) validations
    · exact fun event hevent => absurd hevent List.not_mem_nil
    · exact fun event hevent => absurd hevent List.not_mem_nil
  | validate code next ih =>
    rw [story]
    split
    · next answer _ => exact ih answer (h.2.2 answer) calls (validations + 1)
    · exact fun event hevent => absurd hevent List.not_mem_nil
    · exact fun event hevent => absurd hevent List.not_mem_nil
  | record entry next ih => exact ih h calls validations
  | now next ih => exact ih outside.time (h outside.time) calls validations

end Course

end ContractConversion
