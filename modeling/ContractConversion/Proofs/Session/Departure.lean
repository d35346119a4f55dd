import ContractConversion.Proofs.Session.Orphan
import ContractConversion.Proofs.Session.Pace

/-!
# A reader that goes away

The reader of a session may go away at any moment, be the task in a call, at a full buffer or
between two steps. What is left of its course has one end then, with the answer of the call that the
task is in (`Relay.Heading`), and no move but the end of the budget and a breakdown leads away from
it. The task begins no other call and the stream accepts nothing more, so the session is cancelled,
unless it had told everything or fails with the answer of its call (`Relay.outcome_of_abandoned`).

A task does not wait between its look at the reader and the call behind it, so one that stands at a
call is in it (`SessionTask.call?`).
-/

namespace ContractConversion

/-- A call to the outside. -/
inductive OutsideCall where
  | completion (request : CompletionRequest)
  | validation (code : String)

/-- The call of a step. -/
def Step.call? : Step → Option OutsideCall
  | .called request _ => some (.completion request)
  | .validated code _ => some (.validation code)
  | _ => none

/-- The call that a task is in. -/
def SessionTask.call? : SessionTask → Option OutsideCall
  | .running rest => rest.outside?.bind Step.call?
  | _ => none

namespace Relay

/-- The calls that were begun, the last one first: the one that the task is in, and those of the
log. -/
def begun (r : Relay) : List OutsideCall :=
  r.session.call?.toList ++ r.steps.filterMap Step.call?

/-- The reader goes away. -/
def abandon (r : Relay) : Relay :=
  { r with emitter := r.emitter.disconnect }

/-- The session has written its last progress event. -/
def Told (r : Relay) : Prop :=
  match r.session with
  | .running rest => rest.Silent r.emitter.sent
  | .waiting _ => False
  | .halted _ => True

/-- The session is in a completion call and fails with its answer. -/
def Doomed (outside : Surroundings) (r : Relay) : Prop :=
  ∃ request next answer, r.session = .running (.complete request next) ∧
    outside.complete (r.calls + 1) request = .answers answer ∧
    ∀ elapsed, (next answer elapsed).EndsWith .failed

variable {outside : Surroundings} {budget : ℕ} {settings : Settings} {id : Uuid} {source : String}
  {slots : Admission} {outcome : Outcome} {r r' : Relay}

/-! ## As long as the reader is there -/

/-- What is left of the session heeds its reader. -/
def Heedful (r : Relay) : Prop :=
  match r.session with
  | .running rest => rest.Heeds
  | .waiting rest => rest.Heeds ∧ ∃ w, rest.writing? = some w
  | .halted halt => halt ≠ .ended .cancelled

lemma heedful_of_running {rest : Course} (hr : r.session = .running rest) :
    r.Heedful ↔ rest.Heeds := by
  rw [Heedful, hr]

lemma heedful_of_waiting {rest : Course} (hr : r.session = .waiting rest) :
    r.Heedful ↔ rest.Heeds ∧ ∃ w, rest.writing? = some w := by
  rw [Heedful, hr]

/-- A course heeds its reader behind an event that reaches it. -/
lemma heeds_of_answers {rest : Course} {w : Writing} {answer : Emitted} {log : List Step}
    (h : rest.Heeds) (hw : rest.writing? = some w) (hanswer : rest.Answers log answer) :
    (w.next answer).Heeds := by
  cases rest with
  | emit event next =>
    obtain rfl := Option.some.inj hw
    obtain rfl : answer = .wrote := hanswer
    exact (h.2 .wrote (by decide)).2
  | announce a next =>
    obtain rfl := Option.some.inj hw
    exact (h.2 answer hanswer.1).2
  | _ => cases hw

/-- A session goes on to heed its reader. -/
lemma Move.heedful (hm : Move outside settings.timeoutMs r r')
    (hregular : r.Regular settings id source) (h : r.Heedful) : r'.Heedful := by
  have hsound := Scene.sound_of_reached ofSource_ends hregular.scene
  cases hm with
  | take | attend | quit | close | closeWaits | closeEnds | release => exact h
  | write hr hw hact ha =>
    rw [heedful_of_running hr] at h
    rw [scene_of_running hr] at hsound
    exact heeds_of_answers h hw
      (answers_of_write hsound.1 hsound.2 hregular.connected hw hact ha)
  | await hr hw =>
    rw [heedful_of_running hr] at h
    exact ⟨h, _, hw⟩
  | resume hr hw hput ha =>
    rw [heedful_of_waiting hr] at h
    rw [scene_of_waiting hr] at hsound
    obtain ⟨-, -, -, -, hnew⟩ := hsound
    exact heeds_of_answers h.1 hw (answers_of_resume hnew hregular.connected hw hput ha)
  | look hr hgone =>
    rw [hregular.connected, Bool.not_true] at hgone
    subst hgone
    rw [heedful_of_running hr] at h
    exact h.2
  | complete elapsed hr =>
    rw [heedful_of_running hr] at h
    exact ((h _).1 elapsed).2
  | validate hr =>
    rw [heedful_of_running hr] at h
    exact (h _).1.2
  | record hr =>
    rw [heedful_of_running hr] at h
    exact h.2
  | now hr =>
    rw [heedful_of_running hr] at h
    exact (h outside.time).1.2
  | finish hr =>
    rw [heedful_of_running hr] at h
    exact fun hhalt => h (Halt.ended.inj hhalt)
  | expire | expireWaiting | breakCall | breakValidation => exact nofun

lemma heedful_of_reached (h : Reached outside settings id source slots r) : r.Heedful := by
  induction h with
  | refl => exact Course.ofSource_heeds
  | tail hr hm ih => exact hm.heedful (regular_of_reached hr) ih

/-! ## What is left without the reader -/

/-- The session is in no call, and what is left of it ends with this outcome, if it is not cut
off. -/
def Orphaned (time : Time.Instant) (outcome : Outcome) (r : Relay) : Prop :=
  match r.session with
  | .running rest => rest.orphaned time r.emitter.sent = some outcome
  | .waiting rest => ∃ w, rest.writing? = some w ∧
      (w.next .disconnected).orphaned time r.emitter.sent = some outcome
  | .halted halt => halt.outcome = outcome ∨ halt.outcome = .timedOut ∨ halt.outcome = .panicked

/-- What is left of the session ends with this outcome, with the answer of the call that the task is
in. -/
inductive Heading (outside : Surroundings) (outcome : Outcome) (r : Relay) : Prop
  | orphaned (h : r.Orphaned outside.time outcome)
  | completing {request : CompletionRequest}
      {next : Except OracleFault Completion → ℕ → Course}
      (hr : r.session = .running (.complete request next))
      (h : ∀ answer elapsed, outside.complete (r.calls + 1) request = .answers answer →
        (next answer elapsed).orphaned outside.time r.emitter.sent = some outcome)
  | validating {code : String} {next : Except OracleFault Validation → Course}
      (hr : r.session = .running (.validate code next))
      (h : ∀ answer, outside.validate (r.validations + 1) code = .answers answer →
        (next answer).orphaned outside.time r.emitter.sent = some outcome)

/-- What a relay is in if its reader has gone away there. -/
def Fate (outside : Surroundings) (r : Relay) (outcome : Outcome) : Prop :=
  r.Told ∧ (outcome = .completed ∨ outcome = .failed) ∨
    r.Doomed outside ∧ outcome = .failed ∨
    ¬ r.Told ∧ ¬ r.Doomed outside ∧ outcome = .cancelled

lemma not_doomed_of_running {rest : Course} (hr : r.session = .running rest)
    (hidle : rest.outside? = none) : ¬ r.Doomed outside := by
  rintro ⟨request, next, answer, hr', -⟩
  obtain rfl := SessionTask.running.inj (hr.symm.trans hr')
  cases hidle

/-- A session that is in no call is cancelled, unless it has told everything. -/
lemma heading_of_idle {rest : Course} (hr : r.session = .running rest)
    (hidle : rest.outside? = none) (h : rest.Heeds) :
    ∃ outcome, r.abandon.Heading outside outcome ∧ r.Fate outside outcome := by
  have htold : r.Told ↔ rest.Silent r.emitter.sent := by rw [Told, hr]
  have horphaned : ∀ outcome, rest.orphaned outside.time r.emitter.sent = some outcome →
      r.abandon.Heading outside outcome := by
    intro outcome houtcome
    refine .orphaned ?_
    rw [Orphaned, abandon, hr]
    exact houtcome
  by_cases hsilent : rest.Silent r.emitter.sent
  · rcases h.orphaned_of_silent hsilent outside.time with houtcome | houtcome
    · exact ⟨_, horphaned _ houtcome, Or.inl ⟨htold.mpr hsilent, Or.inl rfl⟩⟩
    · exact ⟨_, horphaned _ houtcome, Or.inl ⟨htold.mpr hsilent, Or.inr rfl⟩⟩
  · exact ⟨.cancelled, horphaned _ (h.orphaned_of_not_silent hidle hsilent),
      Or.inr (Or.inr ⟨htold.not.mpr hsilent, not_doomed_of_running hr hidle, rfl⟩)⟩

/-- A session in a completion call is cancelled behind it, unless it fails with the answer. -/
lemma heading_of_completing {request : CompletionRequest}
    {next : Except OracleFault Completion → ℕ → Course}
    (hr : r.session = .running (.complete request next))
    (h : (Course.complete request next).Heeds) :
    ∃ outcome, r.abandon.Heading outside outcome ∧ r.Fate outside outcome := by
  have htold : ¬ r.Told := by
    rw [Told, hr]
    exact id
  by_cases hdoomed : r.Doomed outside
  · refine ⟨.failed, .completing hr fun answer elapsed hanswer => ?_,
      Or.inr (Or.inl ⟨hdoomed, rfl⟩)⟩
    obtain ⟨request', next', answer', hr', hanswer', hfails⟩ := hdoomed
    obtain ⟨rfl, rfl⟩ := Course.complete.inj (SessionTask.running.inj (hr.symm.trans hr'))
    obtain rfl := Reaction.answers.inj (hanswer.symm.trans hanswer')
    exact (hfails elapsed).orphaned_eq _
  · refine ⟨.cancelled, .completing hr fun answer elapsed hanswer => ?_,
      Or.inr (Or.inr ⟨htold, hdoomed, rfl⟩)⟩
    obtain ⟨hnext, hfails | hloud⟩ := h answer
    · exact absurd ⟨request, next, answer, hr, hanswer, hfails⟩ hdoomed
    · exact (hnext elapsed).2.orphaned_of_not_silent (hnext elapsed).1 (hloud elapsed _)

/-- A session in a validation is cancelled behind it. -/
lemma heading_of_validating {code : String} {next : Except OracleFault Validation → Course}
    (hr : r.session = .running (.validate code next)) (h : (Course.validate code next).Heeds) :
    ∃ outcome, r.abandon.Heading outside outcome ∧ r.Fate outside outcome := by
  refine ⟨.cancelled, .validating hr fun answer _ => ?_, Or.inr (Or.inr ⟨?_, ?_, rfl⟩)⟩
  · obtain ⟨⟨hidle, hheeds⟩, hloud⟩ := h answer
    exact hheeds.orphaned_of_not_silent hidle (hloud _)
  · rw [Told, hr]
    exact id
  · rintro ⟨request, next', answer, hr', -⟩
    cases SessionTask.running.inj (hr.symm.trans hr')

/-- A session whose next event waits for room is cancelled. -/
lemma heading_of_waiting {rest : Course} {w : Writing} (hr : r.session = .waiting rest)
    (h : rest.Heeds) (hw : rest.writing? = some w) :
    ∃ outcome, r.abandon.Heading outside outcome ∧ r.Fate outside outcome := by
  refine ⟨.cancelled, .orphaned ?_, Or.inr (Or.inr ⟨?_, ?_, rfl⟩)⟩
  · rw [Orphaned, abandon, hr]
    refine ⟨w, hw, ?_⟩
    cases rest with
    | emit event next | announce a next =>
      obtain rfl := Option.some.inj hw
      exact h.1.orphaned_eq _
    | _ => cases hw
  · rw [Told, hr]
    exact id
  · rintro ⟨request, next, answer, hr', -⟩
    cases hr.symm.trans hr'

/-- A session that is over stays as it ended. -/
lemma heading_of_halted {halt : Halt} (hr : r.session = .halted halt)
    (h : halt ≠ .ended .cancelled) :
    ∃ outcome, r.abandon.Heading outside outcome ∧ r.Fate outside outcome := by
  have htold : r.Told := by
    rw [Told, hr]
    trivial
  have horphaned : ∀ outcome,
      halt.outcome = outcome ∨ halt.outcome = .timedOut ∨ halt.outcome = .panicked →
      r.abandon.Heading outside outcome := by
    intro outcome houtcome
    refine .orphaned ?_
    rw [Orphaned, abandon, hr]
    exact houtcome
  rcases halt with (result | ⟨failure, phase⟩ | _) | _ | _
  · exact ⟨.completed, horphaned _ (Or.inl rfl), Or.inl ⟨htold, Or.inl rfl⟩⟩
  · exact ⟨.failed, horphaned _ (Or.inl rfl), Or.inl ⟨htold, Or.inr rfl⟩⟩
  · exact absurd rfl h
  · exact ⟨.failed, horphaned _ (Or.inr (Or.inl rfl)), Or.inl ⟨htold, Or.inr rfl⟩⟩
  · exact ⟨.failed, horphaned _ (Or.inr (Or.inr rfl)), Or.inl ⟨htold, Or.inr rfl⟩⟩

/-- **Where a session heads when its reader goes away**: it is cancelled, unless it has told
everything or fails with the answer of its call. -/
lemma heading_of_heedful (outside : Surroundings) (h : r.Heedful) :
    ∃ outcome, r.abandon.Heading outside outcome ∧ r.Fate outside outcome := by
  rw [Heedful] at h
  cases hr : r.session with
  | running rest =>
    rw [hr] at h
    cases rest with
    | complete request next => exact heading_of_completing hr h
    | validate code next => exact heading_of_validating hr h
    | _ => exact heading_of_idle hr rfl h
  | waiting rest =>
    rw [hr] at h
    obtain ⟨hheeds, w, hw⟩ := h
    exact heading_of_waiting hr hheeds hw
  | halted halt =>
    rw [hr] at h
    exact heading_of_halted hr h

/-! ## Moves without the reader -/

/-- Where a session heads, seen from where its task stands. -/
lemma Heading.of_running {rest : Course} (h : r.Heading outside outcome)
    (hr : r.session = .running rest) (hidle : rest.outside? = none) :
    rest.orphaned outside.time r.emitter.sent = some outcome := by
  cases h with
  | orphaned h =>
    rw [Orphaned, hr] at h
    exact h
  | completing hr' | validating hr' =>
    obtain rfl := SessionTask.running.inj (hr.symm.trans hr')
    cases hidle

lemma Heading.of_completing {request : CompletionRequest}
    {next : Except OracleFault Completion → ℕ → Course} {answer : Except OracleFault Completion}
    (h : r.Heading outside outcome) (hr : r.session = .running (.complete request next))
    (hanswer : outside.complete (r.calls + 1) request = .answers answer) (elapsed : ℕ) :
    (next answer elapsed).orphaned outside.time r.emitter.sent = some outcome := by
  cases h with
  | orphaned h =>
    rw [Orphaned, hr] at h
    cases h
  | completing hr' h =>
    obtain ⟨rfl, rfl⟩ := Course.complete.inj (SessionTask.running.inj (hr.symm.trans hr'))
    exact h answer elapsed hanswer
  | validating hr' => cases SessionTask.running.inj (hr.symm.trans hr')

lemma Heading.of_validating {code : String} {next : Except OracleFault Validation → Course}
    {answer : Except OracleFault Validation} (h : r.Heading outside outcome)
    (hr : r.session = .running (.validate code next))
    (hanswer : outside.validate (r.validations + 1) code = .answers answer) :
    (next answer).orphaned outside.time r.emitter.sent = some outcome := by
  cases h with
  | orphaned h =>
    rw [Orphaned, hr] at h
    cases h
  | completing hr' => cases SessionTask.running.inj (hr.symm.trans hr')
  | validating hr' h =>
    obtain ⟨rfl, rfl⟩ := Course.validate.inj (SessionTask.running.inj (hr.symm.trans hr'))
    exact h answer hanswer

lemma Heading.of_waiting {rest : Course} (h : r.Heading outside outcome)
    (hr : r.session = .waiting rest) :
    ∃ w, rest.writing? = some w ∧
      (w.next .disconnected).orphaned outside.time r.emitter.sent = some outcome := by
  cases h with
  | orphaned h =>
    rw [Orphaned, hr] at h
    exact h
  | completing hr' | validating hr' => cases hr.symm.trans hr'

lemma Heading.of_halted {halt : Halt} (h : r.Heading outside outcome)
    (hr : r.session = .halted halt) :
    halt.outcome = outcome ∨ halt.outcome = .timedOut ∨ halt.outcome = .panicked := by
  cases h with
  | orphaned h =>
    rw [Orphaned, hr] at h
    exact h
  | completing hr' | validating hr' => cases hr.symm.trans hr'

lemma begun_of_session {task : SessionTask} (hr : r.session = task) :
    r.begun = task.call?.toList ++ r.steps.filterMap Step.call? := by
  rw [begun, hr]

/-- A session that is in no call began those of its log. -/
lemma Orphaned.begun {time : Time.Instant} (h : r.Orphaned time outcome) :
    r.begun = r.steps.filterMap Step.call? := by
  rw [Orphaned] at h
  cases hr : r.session with
  | running rest =>
    rw [hr] at h
    rw [begun_of_session hr, SessionTask.call?, Course.outside?_of_orphaned h]
    rfl
  | waiting rest | halted halt => exact begun_of_session hr

lemma call?_of_writing {rest : Course} {w : Writing} (hw : rest.writing? = some w)
    (answer : Option Emitted) : (w.step answer).call? = none := by
  cases rest with
  | emit event next | announce a next =>
    obtain rfl := Option.some.inj hw
    rfl
  | _ => cases hw

/-- An event of a course whose reader is gone is not written. -/
lemma orphaned_of_write {rest : Course} {w : Writing} {e e' : Emitter} {answer : Emitted}
    {Q : List Step → Halt → Prop} {log : List Step} {time : Time.Instant}
    (hf : e.Follows log) (hends : rest.Ends Q log) (hgone : e.channel.connected = false)
    (hw : rest.writing? = some w) (h : w.act e = (e', answer)) :
    e'.channel = e.channel ∧
      rest.orphaned time e.sent = (w.next answer).orphaned time e'.sent := by
  cases rest with
  | emit event next =>
    obtain rfl := Option.some.inj hw
    have hput := (Emitter.emit_eq_put hends.1 hf.unclaimed).trans
      (Emitter.put_of_gone e event hgone)
    obtain ⟨rfl, rfl⟩ := Prod.mk.inj (h.symm.trans hput)
    exact ⟨rfl, rfl⟩
  | announce a next =>
    obtain rfl := Option.some.inj hw
    by_cases hnew : a.validated = true ∧ a.name ∉ e.sent
    · have hput := (Emitter.announce_eq_put hnew.1 hnew.2 hf.unclaimed).trans
        (Emitter.put_of_gone { e with sent := a.name :: e.sent } _ hgone)
      obtain ⟨rfl, rfl⟩ := Prod.mk.inj (h.symm.trans hput)
      rw [Course.orphaned, if_pos hnew]
      exact ⟨rfl, rfl⟩
    · have hold : a.validated = false ∨ a.name ∈ e.sent := by
        by_cases hv : a.validated = true
        · exact Or.inr (not_not.mp fun hn => hnew ⟨hv, hn⟩)
        · exact Or.inl (Bool.not_eq_true _ ▸ hv)
      obtain ⟨rfl, rfl⟩ := Prod.mk.inj (h.symm.trans (Emitter.announce_eq_nothing hold))
      rw [Course.orphaned, if_neg hnew]
      exact ⟨rfl, rfl⟩
  | _ => cases hw

/-- A course that waits for an answer is in no other call than the one that goes into its log. -/
lemma call?_of_unanswered {rest : Course} {step : Step} (h : rest.unanswered? = some step) :
    step.call? = rest.outside?.bind Step.call? := by
  cases rest with
  | emit event next | announce a next | complete request next | validate code next =>
    obtain rfl := Option.some.inj h
    rfl
  | _ => cases h

lemma outside?_of_writing {rest : Course} {w : Writing} (hw : rest.writing? = some w) :
    rest.outside? = none := by
  cases rest with
  | emit event next | announce a next => rfl
  | _ => cases hw

section

variable {Q : List Step → Halt → Prop}

/-- **One move without the reader**: the session heads for the same end, and begins no call. -/
lemma Move.orphaned (hm : Move outside budget r r') (hw : r.Watched)
    (hsound : Scene.Sound budget Q r.scene) (hgone : r.emitter.channel.connected = false)
    (h : r.Heading outside outcome) :
    r'.Orphaned outside.time outcome ∧ r'.emitter.channel = r.emitter.channel ∧
      r'.steps.filterMap Step.call? = r.begun := by
  cases hm with
  | take hreceive =>
    obtain ⟨hc, -⟩ := Emitter.receive_some hreceive
    rw [hgone] at hc
    cases hc
  | await hr hw hact =>
    -- nobody waits for a reader that is gone
    have hc := (handed_writing hw hact).connected rfl
    rw [hgone] at hc
    cases hc
  -- the task at an event or at a look, which tells it that the reader is gone
  | write hr hw hact =>
    have hidle := outside?_of_writing hw
    rw [scene_of_running hr] at hsound
    obtain ⟨hchannel, hnext⟩ := orphaned_of_write hsound.1 hsound.2 hgone hw hact
    have hrest := h.of_running hr hidle
    refine ⟨hnext.symm.trans hrest, hchannel, ?_⟩
    rw [begun_of_session hr, SessionTask.call?, hidle, List.filterMap_cons, call?_of_writing hw]
    rfl
  | resume hr hw hput =>
    obtain ⟨w, hw', hrest⟩ := h.of_waiting hr
    obtain rfl := Option.some.inj (hw.symm.trans hw')
    obtain ⟨rfl, rfl⟩ := Prod.mk.inj (hput.symm.trans (Emitter.put_of_gone _ _ hgone))
    refine ⟨hrest, rfl, ?_⟩
    rw [begun_of_session hr, List.filterMap_cons, call?_of_writing hw]
    rfl
  | look hr hlook =>
    rw [hgone, Bool.not_false] at hlook
    subst hlook
    have hrest := h.of_running hr rfl
    exact ⟨hrest, rfl, (begun_of_session hr).symm⟩
  -- the task at the answer of its call
  | complete elapsed hr hanswer =>
    have hrest := h.of_completing hr hanswer elapsed
    exact ⟨hrest, rfl, (begun_of_session hr).symm⟩
  | validate hr hanswer =>
    have hrest := h.of_validating hr hanswer
    exact ⟨hrest, rfl, (begun_of_session hr).symm⟩
  -- the task on its way
  | record hr | now hr =>
    have hrest := h.of_running hr rfl
    exact ⟨hrest, rfl, (begun_of_session hr).symm⟩
  | finish hr =>
    have hrest := h.of_running hr rfl
    exact ⟨Or.inl (Option.some.inj hrest), rfl, (begun_of_session hr).symm⟩
  -- the task is cut off or breaks down
  | expire hr hstep =>
    refine ⟨Or.inr (Or.inl rfl), rfl, ?_⟩
    rw [begun_of_session hr, SessionTask.call?, List.filterMap_cons, ← call?_of_unanswered hstep]
    cases Step.call? _ <;> rfl
  | expireWaiting hr hstep =>
    obtain ⟨w, hw, -⟩ := h.of_waiting hr
    refine ⟨Or.inr (Or.inl rfl), rfl, ?_⟩
    rw [begun_of_session hr, List.filterMap_cons, call?_of_unanswered hstep,
      outside?_of_writing hw]
    rfl
  | breakCall hr | breakValidation hr =>
    exact ⟨Or.inr (Or.inr rfl), rfl, (begun_of_session hr).symm⟩
  -- the supervisor
  | attend hr | quit hr =>
    have hhalted := h.of_halted hr
    rw [Orphaned, hr]
    exact ⟨hhalted, rfl, (begun_of_session hr).symm⟩
  | close hr hs ht hclose | closeWaits hr hs ht hclose =>
    have hhalted := h.of_halted hr
    rw [Orphaned, hr]
    exact ⟨hhalted, Emitter.channel_close_of_gone hgone hclose, (begun_of_session hr).symm⟩
  | closeEnds hr hs hput =>
    have hhalted := h.of_halted hr
    obtain ⟨rfl, rfl⟩ := Prod.mk.inj (hput.symm.trans (Emitter.put_of_gone _ _ hgone))
    rw [Orphaned, hr]
    exact ⟨hhalted, rfl, (begun_of_session hr).symm⟩
  | release hs =>
    obtain ⟨halt, hr⟩ := hw.resolve_left (by simp [hs])
    have hhalted := h.of_halted hr
    rw [Orphaned, hr]
    exact ⟨hhalted, rfl, (begun_of_session hr).symm⟩

end

/-- One move keeps account of the slots. -/
lemma Move.slots_eq (hm : Move outside budget r r') (h : r.slots = r.supervisor.slots slots) :
    r'.slots = r'.supervisor.slots slots := by
  cases hm with
  | attend hr hs | quit hr hs | close hr hs | closeWaits hr hs | closeEnds hr hs =>
    rw [hs] at h
    exact h
  | release hs =>
    rw [hs] at h
    exact congrArg Admission.release h
  | _ => exact h

/-! ## What becomes of the session -/

/-- What holds once the reader is gone: the session heads for its end, and its stream and its calls
are those of when the reader went away. -/
structure Deserted (outside : Surroundings) (settings : Settings) (id : Uuid) (source : String)
    (slots : Admission) (outcome : Outcome) (r₀ r : Relay) : Prop where
  watched : r.Watched
  scene : Scene.Reached settings id source r.scene
  heading : r.Heading outside outcome
  channel : r.emitter.channel = r₀.emitter.channel.disconnect
  begun : r.begun = r₀.begun
  slots : r.slots = r.supervisor.slots slots

variable {r₀ : Relay}

/-- When the reader goes away. -/
lemma deserted_abandon (h : Reached outside settings id source slots r)
    (hheading : r.abandon.Heading outside outcome) :
    Deserted outside settings id source slots outcome r r.abandon := by
  have hregular := regular_of_reached h
  exact ⟨hregular.watched, hregular.scene.tail (.leave hregular.connected), hheading, rfl, rfl,
    (kept_of_reached h).slots⟩

lemma Deserted.gone (h : Deserted outside settings id source slots outcome r₀ r) :
    r.emitter.channel.connected = false := by
  rw [h.channel]
  rfl

/-- One move keeps the session on its way. -/
lemma Deserted.move (h : Deserted outside settings id source slots outcome r₀ r)
    (hm : Move outside settings.timeoutMs r r') :
    Deserted outside settings id source slots outcome r₀ r' := by
  have hsound := Scene.sound_of_reached ofSource_ends h.scene
  obtain ⟨horphaned, hchannel, hbegun⟩ := hm.orphaned h.watched hsound h.gone h.heading
  refine ⟨hm.watched h.watched, ?_, .orphaned horphaned, hchannel.trans h.channel, ?_,
    hm.slots_eq h.slots⟩
  · rcases hm.scene h.watched with ⟨hsame, -⟩ | hmove
    · rw [hsame]
      exact h.scene
    · exact h.scene.tail hmove
  · rw [horphaned.begun, hbegun, h.begun]

/-- When nobody can move, both tasks are through. -/
lemma Deserted.finished_of_atRest (h : Deserted outside settings id source slots outcome r₀ r)
    (hrest : AtRest outside settings.timeoutMs r) :
    r.supervisor = .finished ∧ ∃ halt, r.session = .halted halt := by
  refine finished_of_unblocked (Scene.sound_of_reached ofSource_ends h.scene) ?_ hrest
  intro event e hput
  cases hput.symm.trans (Emitter.put_of_gone _ event h.gone)

/-- A session that is cancelled sends no terminal event. -/
lemma Deserted.plain (h : Deserted outside settings id source slots outcome r₀ r) {halt : Halt}
    (hr : r.session = .halted halt) (hs : r.supervisor = .finished)
    (hcancelled : halt.outcome = .cancelled) :
    ∀ event ∈ r.emitter.channel.history, event.isTerminal = false := by
  have htask : r.scene.task = .closed halt := by rw [scene_of_closed hr (Or.inr hs)]
  exact Scene.not_isTerminal_of_cancelled h.scene htask hcancelled

/-- **A session whose reader goes away comes to its end.** Let the reader go away at any moment of a
session, and let the task and the supervisor move on in any order. No completion call and no
validation is begun any more, and the stream accepts nothing more. The moves come to an end, and
then the session is over and its slot was given back. The session is cancelled, and no terminal
event is sent; but if it had written its last progress event, it is completed or it fails, and it
fails if the answer to the completion call that it was in makes it fail. Only the end of the budget
or a breakdown may come first. -/
theorem outcome_of_abandoned (h : Reached outside settings id source slots r₀)
    (hmoves : Relation.ReflTransGen (Move outside settings.timeoutMs) r₀.abandon r) :
    r.begun = r₀.begun ∧ r.emitter.channel = r₀.emitter.channel.disconnect ∧
      Acc (fun τ σ => Move outside settings.timeoutMs σ τ) r ∧
      (AtRest outside settings.timeoutMs r →
        r.supervisor = .finished ∧ r.slots = slots.release ∧
        ∃ halt, r.session = .halted halt ∧
          (halt.outcome = .timedOut ∨ halt.outcome = .panicked ∨
            r₀.Told ∧ (halt.outcome = .completed ∨ halt.outcome = .failed) ∨
            r₀.Doomed outside ∧ halt.outcome = .failed ∨
            ¬ r₀.Told ∧ ¬ r₀.Doomed outside ∧ halt.outcome = .cancelled) ∧
          (halt.outcome = .cancelled →
            ∀ event ∈ r.emitter.channel.history, event.isTerminal = false)) := by
  obtain ⟨outcome, hheading, hfate⟩ := heading_of_heedful outside (heedful_of_reached h)
  have hdeserted : Deserted outside settings id source slots outcome r₀ r := by
    induction hmoves with
    | refl => exact deserted_abandon h hheading
    | tail _ hm ih => exact ih.move hm
  refine ⟨hdeserted.begun, hdeserted.channel, acc_of_watched hdeserted.watched, fun hrest => ?_⟩
  obtain ⟨hfinished, halt, hr⟩ := hdeserted.finished_of_atRest hrest
  refine ⟨hfinished, ?_, halt, hr, ?_, hdeserted.plain hr hfinished⟩
  · rw [hdeserted.slots, hfinished]
    rfl
  · rcases hdeserted.heading.of_halted hr with hsame | hcut | hbroken
    · rw [hsame]
      exact Or.inr (Or.inr hfate)
    · exact Or.inl hcut
    · exact Or.inr (Or.inl hbroken)

/-- A session whose reader goes away during its first call is cancelled behind it, and it begins no
other call. -/
theorem outcome_of_abandoned_calling :
    let outside : Surroundings :=
      { complete := fun _ _ => .answers (.ok { data := .obj [], usage := {} })
        validate := fun _ _ => .hangs }
    ∃ r₀ r, Reached outside {} .greatest "two contracts" ⟨1, 1⟩ r₀ ∧
      Relation.ReflTransGen (Move outside ({} : Settings).timeoutMs) r₀.abandon r ∧
      AtRest outside ({} : Settings).timeoutMs r ∧
      r.session = .halted (.ended .cancelled) ∧ r.begun = r₀.begun ∧ r.begun.length = 1 ∧
      r.slots = ⟨1, 0⟩ ∧ ∀ event ∈ r.emitter.channel.history, event.isTerminal = false := by
  intro outside
  obtain ⟨r₀, r, hreached, hmoves, hrest, hr, hcalls⟩ : ∃ r₀ r,
      Reached outside {} .greatest "two contracts" ⟨1, 1⟩ r₀ ∧
      Relation.ReflTransGen (Move outside ({} : Settings).timeoutMs) r₀.abandon r ∧
      AtRest outside ({} : Settings).timeoutMs r ∧ r.session = .halted (.ended .cancelled) ∧
      r₀.begun.length = 1 := by
    have hbegins : Reached outside {} .greatest "two contracts" ⟨1, 1⟩
        (start {} .greatest "two contracts" ⟨1, 1⟩) := .refl
    have hcalling := ((hbegins.tail (.record rfl)).tail (.write rfl rfl rfl (by decide))).tail
      (.look rfl rfl)
    have hleaves : ∀ {r : Relay}, Reached outside {} .greatest "two contracts" ⟨1, 1⟩ r →
        Relation.ReflTransGen (Move outside ({} : Settings).timeoutMs) r.abandon r.abandon :=
      fun _ => .refl
    have hanswered := (((hleaves hcalling).tail (.complete 7 rfl rfl)).tail (.record rfl)).tail
      (.write rfl rfl rfl (by decide))
    have hends := ((hanswered.tail (.record rfl)).tail (.finish rfl)).tail (.attend rfl rfl)
    have hcloses := (hends.tail (.quit rfl rfl rfl)).tail (.release rfl)
    exact ⟨_, _, hcalling, hcloses, atRest_of_finished rfl rfl rfl, rfl, rfl⟩
  obtain ⟨hbegun, -, -, hfinal⟩ := outcome_of_abandoned hreached hmoves
  obtain ⟨-, hslots, halt, hr', -, hplain⟩ := hfinal hrest
  obtain rfl := SessionTask.halted.inj (hr.symm.trans hr')
  exact ⟨r₀, r, hreached, hmoves, hrest, hr, hbegun, hbegun ▸ hcalls, hslots, hplain rfl⟩

end Relay
end ContractConversion
