import ContractConversion.Proofs.Session.Relay

/-!
# The pace of the reader changes nothing

The log of the task is as far as the story of the session has been told (`Relay.Tells`), and the
deeds are those of the log and of the supervisor (`Relay.Kept`). Both are kept by every move, so in
the end the reader has got the story with the terminal event behind it, or a beginning of the story
with the event that the time was over (`Relay.received_of_atRest`).
-/

namespace ContractConversion

/-! ## What an answer tells -/

/-- The answers that the next event of a course can get from a stream whose reader is there. -/
def Course.Answers (log : List Step) : Course → Emitted → Prop
  | .emit _ _, answer => answer = .wrote
  | .announce a _, answer => answer ≠ .disconnected ∧ Announces log a answer
  | _, _ => False

/-- With its answer logged, an event has been told. -/
lemma Course.Answers.story_eq {rest : Course} {w : Writing} {answer : Emitted} {log : List Step}
    (h : rest.Answers log answer) (outside : Surroundings) (hw : rest.writing? = some w)
    (calls validations : ℕ) :
    (rest.story outside calls validations (notedIn log)).after (acceptedIn log) =
      ((w.next answer).story outside calls validations
        (notedIn (w.step (some answer) :: log))).after
        (acceptedIn (w.step (some answer) :: log)) := by
  cases rest with
  | emit event next =>
    obtain rfl := Option.some.inj hw
    obtain rfl : answer = .wrote := h
    rw [story, Story.after_cons]
    rfl
  | announce a next =>
    obtain rfl := Option.some.inj hw
    dsimp only
    rw [story, notedIn_announced]
    obtain ⟨hanswer, hannounces⟩ := h
    cases answer with
    | wrote =>
      have hnew : a.validated = true ∧ a.name ∉ notedIn log := hannounces
      rw [if_pos hnew, Story.after_cons]
      rfl
    | nothing =>
      have hold : ¬ (a.validated = true ∧ a.name ∉ notedIn log) := by
        rintro ⟨hv, hn⟩
        rcases hannounces with hinvalid | hnoted
        · rw [hv] at hinvalid
          cases hinvalid
        · exact hn hnoted
      rw [if_neg hold, acceptedIn_cons_of_none rfl]
    | disconnected => exact absurd rfl hanswer
    | blocked => exact hannounces.elim
  | _ => exact h.elim

lemma Course.Untimed.next {rest : Course} {w : Writing} (h : rest.Untimed)
    (hw : rest.writing? = some w) (answer : Emitted) : (w.next answer).Untimed := by
  cases rest with
  | emit event next =>
    obtain rfl := Option.some.inj hw
    exact h answer
  | announce a next =>
    obtain rfl := Option.some.inj hw
    exact h answer
  | _ => cases hw

/-! ## What is left behind -/

lemma recorded?_of_writing {rest : Course} {w : Writing} (hw : rest.writing? = some w)
    (answer : Option Emitted) : (w.step answer).recorded? = none := by
  cases rest with
  | emit event next =>
    obtain rfl := Option.some.inj hw
    rfl
  | announce a next =>
    obtain rfl := Option.some.inj hw
    rfl
  | _ => cases hw

lemma recorded?_of_unanswered {rest : Course} {step : Step} (h : rest.unanswered? = some step) :
    step.recorded? = none := by
  cases rest with
  | emit event next | announce a next | complete request next | validate code next =>
    obtain rfl := Option.some.inj h
    rfl
  | _ => cases h

/-- How the task came to its end, if it did. -/
def SessionTask.halt? : SessionTask → Option Halt
  | halted halt => some halt
  | _ => none

namespace Supervisor

/-- What the supervisor of a session that came to its end in this way has left behind, the last
first. -/
def deeds (budget : ℕ) (halt? : Option Halt) : Supervisor → List Deed
  | watching => []
  | closing | sending _ => (halt?.bind fun halt => halt.entry? budget).toList.map .recorded
  | leaving => (halt?.bind fun halt => halt.terminal? budget).toList.map .sent ++
      (halt?.bind fun halt => halt.entry? budget).toList.map .recorded
  | finished => .released :: (halt?.bind fun halt => halt.terminal? budget).toList.map .sent ++
      (halt?.bind fun halt => halt.entry? budget).toList.map .recorded

/-- What became of the slots of which the session held one. -/
def slots (slots : Admission) : Supervisor → Admission
  | finished => slots.release
  | _ => slots

end Supervisor

namespace Relay

variable {outside : Surroundings} {budget : ℕ} {settings : Settings} {id : Uuid} {source : String}
  {slots : Admission} {story : Story} {r r' : Relay}

/-- An event that is handed over has to wait or is written, since the reader is there. -/
lemma wrote_of_put {event : Event} {e : Emitter} {answer : Emitted}
    (hc : r.emitter.channel.connected = true) (h : r.emitter.put event = (e, answer))
    (ha : answer ≠ .blocked) : answer = .wrote := by
  rcases Emitter.put_cases h with ⟨rfl, -⟩ | ⟨-, hgone, -⟩ | ⟨rfl, -⟩
  · rfl
  · rw [hc] at hgone
    cases hgone
  · exact absurd rfl ha

/-- An event that need not wait gets one of its answers. -/
lemma answers_of_write {rest : Course} {w : Writing} {e : Emitter} {answer : Emitted}
    {Q : List Step → Halt → Prop} (hf : r.emitter.Follows r.steps) (hends : rest.Ends Q r.steps)
    (hc : r.emitter.channel.connected = true) (hw : rest.writing? = some w)
    (h : w.act r.emitter = (e, answer)) (ha : answer ≠ .blocked) :
    rest.Answers r.steps answer := by
  cases rest with
  | emit event next =>
    obtain rfl := Option.some.inj hw
    have hput := Emitter.emit_eq_put hends.1 hf.unclaimed
    exact wrote_of_put hc (hput.symm.trans h) ha
  | announce a next =>
    obtain rfl := Option.some.inj hw
    obtain ⟨hannounces, hf'⟩ := Scene.announces_of_announce hf h ha
    refine ⟨?_, hannounces⟩
    -- the answer that the reader is gone would be right
    rintro rfl
    have hgone := hf'.gone _ List.mem_cons_self rfl
    rw [(Emitter.handed_announce h).connected_eq, hc] at hgone
    cases hgone
  | _ => cases hw

/-- An event that waited is written. -/
lemma answers_of_resume {rest : Course} {w : Writing} {e : Emitter} {answer : Emitted}
    (hnew : ∀ a next, rest = .announce a next → Announces r.steps a .wrote)
    (hc : r.emitter.channel.connected = true) (hw : rest.writing? = some w)
    (h : r.emitter.put w.event = (e, answer)) (ha : answer ≠ .blocked) :
    rest.Answers r.steps answer := by
  obtain rfl := wrote_of_put hc h ha
  cases rest with
  | emit event next => rfl
  | announce a next => exact ⟨by decide, hnew a next rfl⟩
  | _ => cases hw

/-! ## The log is the story so far -/

/-- How the log of a session stands to its story: as long as the task goes on, the rest of the
course tells the rest; when it is over, everything was told, unless the time was over before. -/
def Tells (outside : Surroundings) (story : Story) (r : Relay) : Prop :=
  match r.session with
  | .running rest | .waiting rest =>
    rest.Untimed ∧ story =
      (rest.story outside r.calls r.validations (notedIn r.steps)).after (acceptedIn r.steps)
  | .halted .timedOut => acceptedIn r.steps <+: story.events
  | .halted halt => story = { events := acceptedIn r.steps, halt? := some halt }

section

variable {rest : Course}

lemma tells_of_running (hr : r.session = .running rest) :
    r.Tells outside story ↔ rest.Untimed ∧ story =
      (rest.story outside r.calls r.validations (notedIn r.steps)).after (acceptedIn r.steps) := by
  rw [Tells, hr]

lemma tells_of_waiting (hr : r.session = .waiting rest) :
    r.Tells outside story ↔ rest.Untimed ∧ story =
      (rest.story outside r.calls r.validations (notedIn r.steps)).after (acceptedIn r.steps) := by
  rw [Tells, hr]

/-- A task that is cut off has told a beginning of its story. -/
lemma prefix_of_unanswered {step : Step} (hstep : rest.unanswered? = some step)
    (hstory : story =
      (rest.story outside r.calls r.validations (notedIn r.steps)).after (acceptedIn r.steps)) :
    acceptedIn (step :: r.steps) <+: story.events := by
  rw [acceptedIn_cons_of_none (Course.quiet_of_unanswered? hstep).1, hstory]
  exact List.prefix_append _ _

/-- A task that breaks down has told all of its story. -/
lemma story_of_unanswered {step : Step} {halt : Halt} (hstep : rest.unanswered? = some step)
    (hstory : story = Story.after (acceptedIn r.steps) { halt? := some halt }) :
    story = { events := acceptedIn (step :: r.steps), halt? := some halt } := by
  rw [acceptedIn_cons_of_none (Course.quiet_of_unanswered? hstep).1, hstory, Story.after,
    List.append_nil]

end

/-- **One move goes on with the story.** -/
lemma Move.tells (hm : Move outside settings.timeoutMs r r')
    (hregular : r.Regular settings id source) (h : r.Tells outside story) :
    r'.Tells outside story := by
  have hsound := Scene.sound_of_reached ofSource_ends hregular.scene
  cases hm with
  | take | attend | quit | close | closeWaits | closeEnds | release => exact h
  | @write rest w e answer hr hw hact ha =>
    rw [tells_of_running hr] at h
    rw [scene_of_running hr] at hsound
    have hanswers := answers_of_write hsound.1 hsound.2 hregular.connected hw hact ha
    have hstory := hanswers.story_eq outside hw r.calls r.validations
    exact ⟨h.1.next hw answer, h.2.trans hstory⟩
  | await hr hw hact =>
    rw [tells_of_running hr] at h
    exact h
  | @resume rest w e answer hr hw hput ha =>
    rw [tells_of_waiting hr] at h
    rw [scene_of_waiting hr] at hsound
    obtain ⟨-, -, -, -, hnew⟩ := hsound
    have hanswers := answers_of_resume hnew hregular.connected hw hput ha
    have hstory := hanswers.story_eq outside hw r.calls r.validations
    exact ⟨h.1.next hw answer, h.2.trans hstory⟩
  | look hr hgone =>
    -- the reader is there
    rw [hregular.connected, Bool.not_true] at hgone
    subst hgone
    rw [tells_of_running hr] at h
    refine ⟨h.1 false, ?_⟩
    dsimp only
    rw [acceptedIn_cons_of_none rfl]
    exact h.2
  | complete elapsed hr hanswer =>
    rw [tells_of_running hr] at h
    obtain ⟨huntimed, hstory⟩ := h
    refine ⟨huntimed.1 _ elapsed, ?_⟩
    rw [Course.story, hanswer] at hstory
    dsimp only
    rw [acceptedIn_cons_of_none rfl, huntimed.story_eq]
    exact hstory
  | validate hr hanswer =>
    rw [tells_of_running hr] at h
    obtain ⟨huntimed, hstory⟩ := h
    refine ⟨huntimed _, ?_⟩
    rw [Course.story, hanswer] at hstory
    dsimp only
    rw [acceptedIn_cons_of_none rfl]
    exact hstory
  | record hr =>
    rw [tells_of_running hr] at h
    refine ⟨h.1, ?_⟩
    dsimp only
    rw [acceptedIn_cons_of_none rfl]
    exact h.2
  | now hr =>
    rw [tells_of_running hr] at h
    exact ⟨h.1 _, h.2⟩
  | finish hr =>
    rw [tells_of_running hr] at h
    have hstory := h.2
    rw [Course.story, Story.after, List.append_nil] at hstory
    exact hstory
  | expire hr hstep =>
    rw [tells_of_running hr] at h
    exact prefix_of_unanswered hstep h.2
  | expireWaiting hr hstep =>
    rw [tells_of_waiting hr] at h
    exact prefix_of_unanswered hstep h.2
  | @breakCall request next hr hbreaks =>
    rw [tells_of_running hr] at h
    have hstory := h.2
    rw [Course.story, hbreaks] at hstory
    have hunanswered : (Course.complete request next).unanswered? = some (.called request none) :=
      rfl
    exact story_of_unanswered hunanswered hstory
  | @breakValidation code next hr hbreaks =>
    rw [tells_of_running hr] at h
    have hstory := h.2
    rw [Course.story, hbreaks] at hstory
    have hunanswered : (Course.validate code next).unanswered? = some (.validated code none) := rfl
    exact story_of_unanswered hunanswered hstory

theorem tells_of_reached (h : Reached outside settings id source slots r) :
    r.Tells outside ((Course.ofSource settings id source).story outside 0 0 []) := by
  induction h with
  | refl => exact ⟨Course.ofSource_untimed, rfl⟩
  | tail hr hm ih => exact hm.tells (regular_of_reached hr) ih

/-! ## The deeds are those of the log and of the supervisor -/

/-- What holds of the deeds and the slots: there is an entry for each that the log records, and
behind them stands what the supervisor did. -/
structure Kept (budget : ℕ) (slots : Admission) (r : Relay) : Prop where
  deeds : r.deeds =
    r.supervisor.deeds budget r.session.halt? ++ (entriesIn r.steps).map .recorded
  slots : r.slots = r.supervisor.slots slots

/-- Before the supervisor acts, the deeds are the entries of the log. -/
lemma Kept.of_watching (hs : r.supervisor = .watching)
    (hdeeds : r.deeds = (entriesIn r.steps).map .recorded) (hslots : r.slots = slots) :
    r.Kept budget slots :=
  ⟨by rw [hs]; exact hdeeds, by rw [hs]; exact hslots⟩

lemma Kept.watching (h : r.Kept budget slots) (hs : r.supervisor = .watching) :
    r.deeds = (entriesIn r.steps).map .recorded ∧ r.slots = slots := by
  obtain ⟨hdeeds, hslots⟩ := h
  rw [hs] at hdeeds hslots
  exact ⟨hdeeds, hslots⟩

/-- A task that goes on by a step that records nothing leaves no deed. -/
lemma Kept.quiet (h : r.Kept budget slots) (hs : r.supervisor = .watching)
    (hs' : r'.supervisor = .watching) (hdeeds : r'.deeds = r.deeds) (hslots : r'.slots = r.slots)
    (hsteps : entriesIn r'.steps = entriesIn r.steps) : r'.Kept budget slots := by
  obtain ⟨hsame, hheld⟩ := h.watching hs
  refine .of_watching hs' ?_ (hslots.trans hheld)
  rw [hdeeds, hsame, hsteps]

/-- A terminal event that is handed in has to wait or is written, since the reader is there. -/
lemma wrote_of_close {event : Event} {e : Emitter} {answer : Emitted}
    (hc : r.emitter.channel.connected = true) (hclaimed : r.emitter.claimed = false)
    (h : r.emitter.close event = (e, answer)) (ha : answer ≠ .blocked) : answer = .wrote := by
  rcases Emitter.close_cases hclaimed h with ⟨rfl, -⟩ | ⟨-, -, hgone⟩ | ⟨rfl, -⟩
  · rfl
  · rw [hc] at hgone
    cases hgone
  · exact absurd rfl ha

/-- **One move keeps the deeds.** -/
lemma Move.kept (hm : Move outside settings.timeoutMs r r')
    (hregular : r.Regular settings id source) (h : r.Kept settings.timeoutMs slots) :
    r'.Kept settings.timeoutMs slots := by
  have hsound := Scene.sound_of_reached ofSource_ends hregular.scene
  cases hm with
  | take => exact ⟨h.deeds, h.slots⟩
  -- the task
  | write hr hw =>
    have hs := hregular.watched.of_running hr
    exact h.quiet hs hs rfl rfl (entriesIn_cons_of_none (recorded?_of_writing hw _) _)
  | await hr =>
    have hs := hregular.watched.of_running hr
    exact h.quiet hs hs rfl rfl rfl
  | resume hr hw =>
    have hs := hregular.watched.of_waiting hr
    exact h.quiet hs hs rfl rfl (entriesIn_cons_of_none (recorded?_of_writing hw _) _)
  | look hr | complete _ hr | validate hr | now hr | finish hr
  | breakCall hr | breakValidation hr =>
    have hs := hregular.watched.of_running hr
    exact h.quiet hs hs rfl rfl rfl
  | expire hr hstep =>
    have hs := hregular.watched.of_running hr
    exact h.quiet hs hs rfl rfl (entriesIn_cons_of_none (recorded?_of_unanswered hstep) _)
  | expireWaiting hr hstep =>
    have hs := hregular.watched.of_waiting hr
    exact h.quiet hs hs rfl rfl (entriesIn_cons_of_none (recorded?_of_unanswered hstep) _)
  | record hr =>
    have hs := hregular.watched.of_running hr
    obtain ⟨hdeeds, hslots⟩ := h.watching hs
    refine .of_watching hs ?_ hslots
    exact congrArg (_ :: ·) hdeeds
  -- the supervisor
  | attend hr hs =>
    obtain ⟨hdeeds, hslots⟩ := h.watching hs
    refine ⟨?_, hslots⟩
    rw [hdeeds, hr]
    rfl
  | quit hr hs ht =>
    obtain ⟨hdeeds, hslots⟩ := h
    rw [hs] at hslots
    refine ⟨?_, hslots⟩
    rw [hdeeds, hs, hr]
    simp [Supervisor.deeds, SessionTask.halt?, ht]
  | close hr hs ht hclose ha =>
    rw [scene_of_halted hr (Or.inr hs)] at hsound
    obtain rfl := wrote_of_close hregular.connected hsound.1.unclaimed hclose ha
    obtain ⟨hdeeds, hslots⟩ := h
    rw [hs] at hslots
    refine ⟨?_, hslots⟩
    rw [hdeeds, hs, hr]
    simp [Supervisor.deeds, SessionTask.halt?, ht, sending]
  | closeWaits hr hs ht hclose =>
    obtain ⟨hdeeds, hslots⟩ := h
    rw [hs] at hdeeds hslots
    exact ⟨hdeeds, hslots⟩
  | closeEnds hr hs hput ha =>
    rw [scene_of_sending hr hs] at hsound
    obtain ⟨-, ht, -⟩ := hsound
    obtain rfl := wrote_of_put hregular.connected hput ha
    obtain ⟨hdeeds, hslots⟩ := h
    rw [hs] at hslots
    refine ⟨?_, hslots⟩
    rw [hdeeds, hs, hr]
    simp [Supervisor.deeds, SessionTask.halt?, ht, sending]
  | release hs =>
    obtain ⟨hdeeds, hslots⟩ := h
    rw [hs] at hdeeds hslots
    exact ⟨congrArg (_ :: ·) hdeeds, congrArg Admission.release hslots⟩

theorem kept_of_reached (h : Reached outside settings id source slots r) :
    r.Kept settings.timeoutMs slots := by
  induction h with
  | refl => exact ⟨rfl, rfl⟩
  | tail hr hm ih => exact hm.kept (regular_of_reached hr) ih

end Relay

/-! ## A session is recorded as finished once -/

/-- The entry says that the session is finished. -/
def AuditEntry.isFinish : AuditEntry → Bool
  | sessionFinished _ _ _ => true
  | _ => false

/-- The deed records that the session is finished. -/
def Deed.isFinish : Deed → Bool
  | recorded entry => entry.isFinish
  | _ => false

section

variable {settings : Settings} {id : Uuid} {source : String} {log : List Step}

/-- As long as it goes on, a session is not recorded as finished. -/
lemma History.countP_isFinish {point : Point} (h : History settings id source point log) :
    (entriesIn log).countP AuditEntry.isFinish = 0 := by
  induction h with
  | opened => rfl
  | wrote _ ih | skipped _ _ ih | judged _ _ ih | checked _ _ ih | passedOver _ _ ih
  | succeeded _ _ ih | retried _ _ ih => exact ih
  -- calls and announcements have entries of their own
  | analysed _ _ _ _ ih | notAnalysed _ ih | planned _ _ _ _ _ ih | notPlanned _ _ ih
  | applied _ _ ih | spent _ _ _ ih | unmerged _ _ ih | announced _ _ ih => exact ih

/-- **When a session is over, it is recorded as finished once**, by its task or by its
supervisor. -/
lemma Halted.countP_isFinish {halt : Halt} (h : Halted settings id source log halt) (budget : ℕ) :
    ((halt.entry? budget).toList ++ entriesIn log).countP AuditEntry.isFinish = 1 := by
  have honce : ∀ (entry : AuditEntry) (entries : List AuditEntry), entry.isFinish = true →
      entries.countP AuditEntry.isFinish = 0 →
      (entry :: entries).countP AuditEntry.isFinish = 1 := by
    intro entry entries hentry hentries
    rw [List.countP_cons_of_pos hentry, hentries]
  cases h with
  -- the task records its end
  | writeLost h | askLost h | checkLost h | announceLost h | failed h | completed h =>
    exact honce _ _ rfl h.countP_isFinish
  -- the supervisor does
  | writeCut h | announceCut h => exact honce _ _ rfl h.countP_isFinish
  | askCut h hhalt | checkCut h _ hhalt =>
    rcases hhalt with rfl | rfl
    · exact honce _ _ rfl h.countP_isFinish
    · exact honce _ _ rfl h.countP_isFinish

end

/-! ## What the reader has got in the end -/

namespace Relay

variable {outside : Surroundings} {settings : Settings} {id : Uuid} {source : String}
  {slots : Admission} {r : Relay}

/-- When the supervisor is through, the stream has accepted what the session told and then the
terminal event. -/
lemma history_of_finished {halt : Halt} (h : r.Regular settings id source)
    (hr : r.session = .halted halt) (hs : r.supervisor = .finished) :
    Halted settings id source r.steps halt ∧
      ∃ terminal, halt.terminal? settings.timeoutMs = some terminal ∧
        r.emitter.channel.history = acceptedIn r.steps ++ [terminal] := by
  have hsound := Scene.sound_of_reached ofSource_ends h.scene
  rw [scene_of_closed hr (Or.inr hs)] at hsound
  obtain ⟨hhalted, ⟨hnone, hholds⟩ | hsent | ⟨-, hgone⟩⟩ := hsound
  · -- without a terminal event the session was cancelled, so the reader is gone
    exfalso
    rw [Halt.terminal?_eq_none] at hnone
    subst hnone
    obtain ⟨step, hstep, hsees⟩ := hhalted.exists_seesGone
    have hgone := hholds.gone step hstep hsees
    rw [h.connected] at hgone
    cases hgone
  · exact ⟨hhalted, hsent⟩
  · exact absurd h.connected hgone

/-- When the supervisor is through, the slot was given back after the terminal event was sent, and
that after everything was recorded. -/
lemma Kept.deeds_of_finished {budget : ℕ} {halt : Halt} {terminal : Event}
    (h : r.Kept budget slots) (hr : r.session = .halted halt) (hs : r.supervisor = .finished)
    (hterminal : halt.terminal? budget = some terminal) :
    r.deeds = .released :: .sent terminal ::
      ((halt.entry? budget).toList ++ entriesIn r.steps).map .recorded := by
  have hdeeds := h.deeds
  rw [hs, hr] at hdeeds
  rw [hdeeds]
  simp [Supervisor.deeds, SessionTask.halt?, hterminal]

/-- **A slow reader changes nothing.** Let a session run in surroundings that answer every call in
a fixed way, the clock among them, and let its task, its supervisor and a reader that stays move in
any order, until nobody can move any more. If the session ended within its budget, in the way of its
story, the reader has got the story and the terminal event behind it, the same in every order. If
the time was over before, wherever the task was waiting, it has got a beginning of the story and the
event that says so. Either way the end of the session was recorded once, and its slot was given back
once, after the terminal event was sent. -/
theorem received_of_atRest (h : Reached outside settings id source slots r)
    (hrest : AtRest outside settings.timeoutMs r) :
    let story := (Course.ofSource settings id source).story outside 0 0 []
    (∀ event ∈ story.events, event.isTerminal = false) ∧
      ∃ halt terminal, r.session = .halted halt ∧
        halt.terminal? settings.timeoutMs = some terminal ∧ terminal.isTerminal = true ∧
        (halt ≠ .timedOut → story.halt? = some halt ∧ r.received = story.events ++ [terminal]) ∧
        (halt = .timedOut → ∃ told message, told <+: story.events ∧
          terminal = .error message none (some "timeout") ∧ r.received = told ++ [terminal]) ∧
        r.deeds.countP Deed.isFinish = 1 ∧
        (∃ earlier, r.deeds = .released :: .sent terminal :: earlier ∧
          ∀ deed ∈ earlier, ∃ entry, deed = .recorded entry) ∧
        r.slots = slots.release := by
  intro story
  have hregular := regular_of_reached h
  have htells := tells_of_reached h
  have hkept := kept_of_reached h
  obtain ⟨hfinished, hreceived, halt, hr⟩ := finished_of_atRest h hrest
  obtain ⟨hhalted, terminal, hterminal, hhistory⟩ := history_of_finished hregular hr hfinished
  have hdeeds := hkept.deeds_of_finished hr hfinished hterminal
  have hplain : ∀ event ∈ story.events, event.isTerminal = false :=
    Course.plain_of_story ofSource_ends 0 0
  rw [Tells, hr] at htells
  refine ⟨hplain, halt, terminal, hr, hterminal, Halt.isTerminal_of_terminal? hterminal, ?_, ?_, ?_,
    ⟨_, hdeeds, ?_⟩, ?_⟩
  · intro hhalt
    have hstory : story = { events := acceptedIn r.steps, halt? := some halt } := by
      cases halt with
      | timedOut => exact absurd rfl hhalt
      | _ => exact htells
    rw [hreceived, hhistory, hstory]
    exact ⟨rfl, rfl⟩
  · rintro rfl
    obtain rfl := Option.some.inj hterminal
    exact ⟨_, _, htells, rfl, hreceived.trans hhistory⟩
  · rw [hdeeds, List.countP_cons_of_neg Bool.false_ne_true,
      List.countP_cons_of_neg Bool.false_ne_true, List.countP_map]
    exact hhalted.countP_isFinish settings.timeoutMs
  · intro deed hdeed
    obtain ⟨entry, -, rfl⟩ := List.mem_map.mp hdeed
    exact ⟨entry, rfl⟩
  · rw [hkept.slots, hfinished]
    rfl

/-- A session whose first call fails tells that it began, and the reader gets why it failed. -/
theorem received_of_atRest_failed :
    let outside : Surroundings :=
      { complete := fun _ _ => .answers (.error (.unavailable "no answer"))
        validate := fun _ _ => .hangs }
    let failure := SessionFailure.oracle 1 (.unavailable "no answer")
    ∃ r, Reached outside {} .greatest "two contracts" ⟨1, 1⟩ r ∧
      AtRest outside ({} : Settings).timeoutMs r ∧
      r.session = .halted (.ended (.failed failure (some 1))) ∧
      r.received = [.phase1Start .greatest, .error failure.message (some 1) (some "oracle")] ∧
      r.slots = ⟨1, 0⟩ := by
  intro outside failure
  obtain ⟨r, hreached, hrest, hr⟩ : ∃ r, Reached outside {} .greatest "two contracts" ⟨1, 1⟩ r ∧
      AtRest outside ({} : Settings).timeoutMs r ∧
      r.session = .halted (.ended (.failed failure (some 1))) := by
    have hbegins : Reached outside {} .greatest "two contracts" ⟨1, 1⟩
        (start {} .greatest "two contracts" ⟨1, 1⟩) := .refl
    have htells := ((hbegins.tail (.record rfl)).tail (.write rfl rfl rfl (by decide))).tail
      (.look rfl rfl)
    have hfails := ((htells.tail (.complete 7 rfl rfl)).tail (.record rfl)).tail (.record rfl)
    have hends := ((hfails.tail (.finish rfl)).tail (.attend rfl rfl)).tail (.take rfl)
    have hcloses := hends.tail (.close rfl rfl rfl rfl (by decide))
    have hdrains := (hcloses.tail (.release rfl)).tail (.take rfl)
    exact ⟨_, hdrains, atRest_of_finished rfl rfl rfl, rfl⟩
  obtain ⟨-, halt, terminal, hr', hterminal, -, hstory, -, -, -, hslots⟩ :=
    received_of_atRest hreached hrest
  obtain rfl : Halt.ended (.failed failure (some 1)) = halt :=
    SessionTask.halted.inj (hr.symm.trans hr')
  obtain rfl := Option.some.inj hterminal
  exact ⟨r, hreached, hrest, hr, (hstory (by decide)).2, hslots⟩

end Relay

end ContractConversion
