import ContractConversion.Proofs.Session.Log

/-!
# From the logs of a course to the scenes of a session

`Course.Ends Q` says of a course that, whatever its surroundings answer, it ends with a log and in
a way that satisfy `Q`, be it of its own accord or cut off. It is one definition by recursion on the
course, so it is shown of a course piece by piece, without a word on readers and buffers.

`Scene.Sound Q` is what this becomes in a scene. Every move of the three parties keeps it
(`Sound.move`), so what holds of the logs of a course holds of every scene that is reached, in every
order of moves (`sound_of_reached`).
-/

namespace ContractConversion

/-- The answers that an announcement can get, seen from the log. -/
def Announces (log : List Step) (a : Artifact) : Emitted → Prop
  | .wrote | .disconnected => a.validated = true ∧ a.name ∉ notedIn log
  | .nothing => a.validated = false ∨ a.name ∈ notedIn log
  | .blocked => False

/-- Whatever is answered, the course ends with a log and in a way that satisfy `Q`. -/
def Course.Ends (Q : List Step → Halt → Prop) : Course → List Step → Prop
  | .finish ending, log => Q log (.ended ending)
  | .emit event next, log =>
    event.isTerminal = false ∧ Q (.emitted event none :: log) .timedOut ∧
      ∀ answer, answer = .wrote ∨ answer = .disconnected →
        (next answer).Ends Q (.emitted event (some answer) :: log)
  | .announce a next, log =>
    Q (.announced a none :: log) .timedOut ∧
      ∀ answer, Announces log a answer →
        (next answer).Ends Q (.announced a (some answer) :: log)
  | .look next, log => ∀ gone, (next gone).Ends Q (.looked gone :: log)
  | .complete request next, log =>
    Q (.called request none :: log) .timedOut ∧ Q (.called request none :: log) .panicked ∧
      ∀ answer elapsed, (next answer elapsed).Ends Q (.called request (some answer) :: log)
  | .validate code next, log =>
    Q (.validated code none :: log) .timedOut ∧ Q (.validated code none :: log) .panicked ∧
      ∀ answer, (next answer).Ends Q (.validated code (some answer) :: log)
  | .record entry next, log => next.Ends Q (.recorded entry :: log)
  | .now next, log => ∀ time, (next time).Ends Q log

namespace Course.Ends

variable {Q : List Step → Halt → Prop} {rest : Course} {log : List Step}

/-- A course that is cut off where it waits ends as it should. -/
lemma timedOut {step : Step} (h : rest.Ends Q log) (hstep : rest.unanswered? = some step) :
    Q (step :: log) .timedOut := by
  cases rest with
  | emit event next => obtain rfl := Option.some.inj hstep; exact h.2.1
  | announce a next => obtain rfl := Option.some.inj hstep; exact h.1
  | complete request next => obtain rfl := Option.some.inj hstep; exact h.1
  | validate code next => obtain rfl := Option.some.inj hstep; exact h.1
  | _ => exact absurd hstep (by simp [unanswered?])

/-- A course that breaks down in a call ends as it should. -/
lemma panicked {step : Step} (h : rest.Ends Q log) (hstep : rest.outside? = some step) :
    Q (step :: log) .panicked := by
  cases rest with
  | complete request next => obtain rfl := Option.some.inj hstep; exact h.2.1
  | validate code next => obtain rfl := Option.some.inj hstep; exact h.2.1
  | _ => exact absurd hstep (by simp [outside?])

/-- A course can always come to an end without having one more event accepted. -/
lemma exists_end (h : rest.Ends Q log) :
    ∃ tail halt, (∀ step ∈ tail, step.accepted? = none) ∧ Q (tail ++ log) halt := by
  -- where the course waits it is cut off, and what it does by itself accepts nothing
  induction rest generalizing log with
  | finish ending => exact ⟨[], _, by simp, h⟩
  | emit event next ih => exact ⟨[.emitted event none], _, by simp [Step.accepted?], h.2.1⟩
  | announce a next ih => exact ⟨[.announced a none], _, by simp [Step.accepted?], h.1⟩
  | look next ih =>
    obtain ⟨tail, halt, hquiet, hQ⟩ := ih true (h true)
    refine ⟨tail ++ [.looked true], halt, fun step hstep => ?_, by simpa using hQ⟩
    rcases List.mem_append.mp hstep with hstep | hstep
    · exact hquiet step hstep
    · rw [List.mem_singleton.mp hstep]
      rfl
  | complete request next ih => exact ⟨[.called request none], _, by simp [Step.accepted?], h.1⟩
  | validate code next ih => exact ⟨[.validated code none], _, by simp [Step.accepted?], h.1⟩
  | record entry next ih =>
    obtain ⟨tail, halt, hquiet, hQ⟩ := ih h
    refine ⟨tail ++ [.recorded entry], halt, fun step hstep => ?_, by simpa using hQ⟩
    rcases List.mem_append.mp hstep with hstep | hstep
    · exact hquiet step hstep
    · rw [List.mem_singleton.mp hstep]
      rfl
  | now next ih => exact ih default (h default)

end Course.Ends

/-- A call is something that the task waits for. -/
lemma Course.unanswered?_of_outside? {rest : Course} {step : Step} (h : rest.outside? = some step) :
    rest.unanswered? = some step := by
  cases rest with
  | complete request next => exact h
  | validate code next => exact h
  | _ => exact absurd h (by simp [outside?])

/-- A step that is not answered had nothing accepted and is no news of the reader. -/
lemma Course.quiet_of_unanswered? {rest : Course} {step : Step} (h : rest.unanswered? = some step) :
    step.accepted? = none ∧ step.seesGone = false := by
  cases rest with
  | emit event next => obtain rfl := Option.some.inj h; exact ⟨rfl, rfl⟩
  | announce a next => obtain rfl := Option.some.inj h; exact ⟨rfl, rfl⟩
  | complete request next => obtain rfl := Option.some.inj h; exact ⟨rfl, rfl⟩
  | validate code next => obtain rfl := Option.some.inj h; exact ⟨rfl, rfl⟩
  | _ => exact absurd h (by simp [unanswered?])

lemma Emitter.Holds.unanswered {e : Emitter} {log : List Step} (hh : e.Holds log) {rest : Course}
    {step : Step} (h : rest.unanswered? = some step) : e.Holds (step :: log) := by
  obtain ⟨haccepted, hgone⟩ := Course.quiet_of_unanswered? h
  exact hh.cons haccepted (by simp [hgone])

namespace Scene

/-- What a scene has to satisfy if the course of its session ends as `Q` says. -/
def Sound (budget : ℕ) (Q : List Step → Halt → Prop) (σ : Scene) : Prop :=
  match σ.task with
  | .running rest => σ.emitter.Follows σ.steps ∧ rest.Ends Q σ.steps
  | .waiting rest =>
    rest.Ends Q σ.steps ∧ ∃ step, rest.unanswered? = some step ∧
      σ.emitter.Follows (step :: σ.steps) ∧
      ∀ a next, rest = .announce a next → Announces σ.steps a .wrote
  | .halted halt => σ.emitter.Holds σ.steps ∧ Q σ.steps halt
  | .closing event halt =>
    σ.events = acceptedIn σ.steps ∧ halt.terminal? budget = some event ∧ Q σ.steps halt
  | .closed halt =>
    Q σ.steps halt ∧
      (halt.terminal? budget = none ∧ σ.emitter.Holds σ.steps ∨
        (∃ event, halt.terminal? budget = some event ∧ σ.events = acceptedIn σ.steps ++ [event]) ∨
        σ.events = acceptedIn σ.steps ∧ ¬ σ.Attended)

variable {budget : ℕ} {Q : List Step → Halt → Prop}

/-- A move that changes only the reader's part of the channel keeps a scene sound. -/
lemma Sound.of_reader {task : Task} {e e' : Emitter} {steps : List Step}
    (h : Sound budget Q ⟨task, e, steps⟩) (hsent : e'.sent = e.sent)
    (hclaimed : e'.claimed = e.claimed) (hhistory : e'.channel.history = e.channel.history)
    (hgone : e.channel.connected = false → e'.channel.connected = false) :
    Sound budget Q ⟨task, e', steps⟩ := by
  have hholds : ∀ log, e.Holds log → e'.Holds log := fun log hh =>
    ⟨hhistory.trans hh.history, hclaimed.trans hh.unclaimed, fun s hs hg => hgone (hh.gone s hs hg)⟩
  have hfollows : ∀ log, e.Follows log → e'.Follows log := fun log hf =>
    ⟨hholds log hf.toHolds, fun n => by rw [hsent, hf.sent]⟩
  cases task with
  | running rest => exact ⟨hfollows _ h.1, h.2⟩
  | waiting rest =>
    obtain ⟨hends, step, hstep, hf, ha⟩ := h
    exact ⟨hends, step, hstep, hfollows _ hf, ha⟩
  | halted halt => exact ⟨hholds _ h.1, h.2⟩
  | closing event halt => exact ⟨hhistory.trans h.1, h.2⟩
  | closed halt =>
    refine ⟨h.1, ?_⟩
    rcases h.2 with ⟨hnone, hh⟩ | ⟨event, hsome, hev⟩ | ⟨hev, hatt⟩
    · exact Or.inl ⟨hnone, hholds _ hh⟩
    · exact Or.inr (Or.inl ⟨event, hsome, hhistory.trans hev⟩)
    · refine Or.inr (Or.inr ⟨hhistory.trans hev, ?_⟩)
      have hc := hgone (by simpa [Attended] using hatt)
      simp [Attended, hc]

/-- An announcement that does not have to wait gets one of its answers. -/
lemma announces_of_announce {a : Artifact} {e e' : Emitter} {log : List Step} {answer : Emitted}
    (hf : e.Follows log) (h : e.announce a = (e', answer)) (ha : answer ≠ .blocked) :
    Announces log a answer ∧ e'.Follows (.announced a (some answer) :: log) := by
  by_cases hnothing : a.validated = false ∨ a.name ∈ e.sent
  · rw [Emitter.announce_eq_nothing hnothing] at h
    obtain ⟨rfl, rfl⟩ := Prod.mk.inj h
    have hlog : a.validated = false ∨ a.name ∈ notedIn log := by rwa [← hf.sent]
    refine ⟨hlog, hf.quiet rfl (fun n hn => ?_) (by simp [Step.seesGone])⟩
    cases hv : a.validated with
    | false => simp [Step.noted?, hv] at hn
    | true =>
      obtain rfl : a.name = n := by simpa [Step.noted?, hv] using hn
      exact hlog.resolve_left (by simp [hv])
  · obtain ⟨hv, hsent⟩ := not_or.mp hnothing
    rw [Bool.not_eq_false] at hv
    rw [Emitter.announce_eq_put hv hsent hf.unclaimed] at h
    obtain ⟨hanswer, hf'⟩ := (hf.noting hv).announced h ha
    have hnew : a.validated = true ∧ a.name ∉ notedIn log := ⟨hv, by rwa [← hf.sent]⟩
    rcases hanswer with rfl | rfl
    · exact ⟨hnew, hf'⟩
    · exact ⟨hnew, hf'⟩

/-- An announcement that has to wait has noted its name. -/
lemma announces_of_blocked {a : Artifact} {e e' : Emitter} {log : List Step} (hf : e.Follows log)
    (h : e.announce a = (e', .blocked)) :
    Announces log a .wrote ∧ e'.Follows (.announced a none :: log) := by
  by_cases hnothing : a.validated = false ∨ a.name ∈ e.sent
  · rw [Emitter.announce_eq_nothing hnothing] at h
    exact absurd (Prod.mk.inj h).2 (by simp)
  · obtain ⟨hv, hsent⟩ := not_or.mp hnothing
    rw [Bool.not_eq_false] at hv
    rw [Emitter.announce_eq_put hv hsent hf.unclaimed] at h
    rcases Emitter.put_cases h with ⟨hb, -⟩ | ⟨hb, -⟩ | ⟨-, -, rfl⟩
    · exact absurd hb (by simp)
    · exact absurd hb (by simp)
    · exact ⟨⟨hv, by rwa [← hf.sent]⟩, hf.noting hv⟩

/-- Every move keeps a scene sound. -/
theorem Sound.move {σ τ : Scene} (hm : Move budget σ τ) (h : Sound budget Q σ) :
    Sound budget Q τ := by
  cases hm with
  -- the reader
  | take hreceive =>
    obtain ⟨-, -, rfl⟩ := Emitter.receive_some hreceive
    exact h.of_reader rfl rfl rfl id
  | leave hc => exact h.of_reader rfl rfl rfl fun _ => rfl
  -- the task: each answer that it can get is among those of which `Ends` speaks
  | @emit event next e e' steps answer hemit ha =>
    obtain ⟨hf, hterm, -, hends⟩ := h
    rw [Emitter.emit_eq_put hterm hf.unclaimed] at hemit
    obtain ⟨hanswer, hf'⟩ := hf.emitted hemit ha
    exact ⟨hf', hends answer hanswer⟩
  | @emitWaits event next e e' steps hemit =>
    obtain ⟨hf, hends⟩ := h
    rw [Emitter.emit_eq_put hends.1 hf.unclaimed] at hemit
    rcases Emitter.put_cases hemit with ⟨hb, -⟩ | ⟨hb, -⟩ | ⟨-, -, rfl⟩
    · exact absurd hb (by simp)
    · exact absurd hb (by simp)
    · refine ⟨hends, _, rfl, ?_, fun a next ha => absurd ha (by simp)⟩
      exact hf.quiet rfl (by simp [Step.noted?]) (by simp [Step.seesGone])
  | @emitEnds event next e e' steps answer hput ha =>
    obtain ⟨⟨-, -, hends⟩, step, hstep, hf, -⟩ := h
    obtain rfl := Option.some.inj hstep
    -- nothing was noted for the event itself
    have hlog : e.Follows steps := by
      refine ⟨⟨?_, hf.unclaimed, fun s hs => hf.gone s (List.mem_cons_of_mem _ hs)⟩, hf.sent⟩
      rw [hf.history, acceptedIn_cons_of_none rfl]
    obtain ⟨hanswer, hf'⟩ := hlog.emitted hput ha
    exact ⟨hf', hends answer hanswer⟩
  | @announce a next e e' steps answer hannounce ha =>
    obtain ⟨hf, -, hends⟩ := h
    obtain ⟨hanswer, hf'⟩ := announces_of_announce hf hannounce ha
    exact ⟨hf', hends answer hanswer⟩
  | @announceWaits a next e e' steps hannounce =>
    obtain ⟨hf, hends⟩ := h
    obtain ⟨hnew, hf'⟩ := announces_of_blocked hf hannounce
    refine ⟨hends, _, rfl, hf', fun b next hb => ?_⟩
    obtain ⟨rfl, -⟩ := Course.announce.inj hb
    exact hnew
  | @announceEnds a next e e' steps answer hput ha =>
    obtain ⟨⟨-, hends⟩, step, hstep, hf, hnew⟩ := h
    obtain rfl := Option.some.inj hstep
    obtain ⟨hanswer, hf'⟩ := hf.announced hput ha
    refine ⟨hf', hends answer ?_⟩
    rcases hanswer with rfl | rfl
    · exact hnew a next rfl
    · exact hnew a next rfl
  | look =>
    obtain ⟨hf, hends⟩ := h
    exact ⟨hf.quiet rfl (by simp [Step.noted?]) (by simp [Step.seesGone]), hends _⟩
  | complete answer elapsed =>
    obtain ⟨hf, -, -, hends⟩ := h
    exact ⟨hf.quiet rfl (by simp [Step.noted?]) (by simp [Step.seesGone]), hends answer elapsed⟩
  | validate answer =>
    obtain ⟨hf, -, -, hends⟩ := h
    exact ⟨hf.quiet rfl (by simp [Step.noted?]) (by simp [Step.seesGone]), hends answer⟩
  | record =>
    obtain ⟨hf, hends⟩ := h
    exact ⟨hf.quiet rfl (by simp [Step.noted?]) (by simp [Step.seesGone]), hends⟩
  | now time => exact ⟨h.1, h.2 time⟩
  | finish => exact ⟨h.1.toHolds, h.2⟩
  | @expire rest step e steps hstep =>
    obtain ⟨hf, hends⟩ := h
    exact ⟨hf.toHolds.unanswered hstep, hends.timedOut hstep⟩
  | @expireWaiting rest step e steps hstep =>
    obtain ⟨hends, step', hstep', hf, -⟩ := h
    obtain rfl := Option.some.inj (hstep.symm.trans hstep')
    exact ⟨hf.toHolds, hends.timedOut hstep⟩
  | @panic rest step e steps hstep =>
    obtain ⟨hf, hends⟩ := h
    exact ⟨hf.toHolds.unanswered (Course.unanswered?_of_outside? hstep), hends.panicked hstep⟩
  -- the supervisor
  | quit hnone => exact ⟨h.2, Or.inl ⟨hnone, h.1⟩⟩
  | @close halt event e e' steps answer hterm hclose ha =>
    obtain ⟨hh, hQ⟩ := h
    refine ⟨hQ, Or.inr ?_⟩
    rcases Emitter.close_cases hh.unclaimed hclose with
      ⟨-, hhistory, -⟩ | ⟨-, hchannel, hc⟩ | ⟨hb, -⟩
    · exact Or.inl ⟨event, hterm, hhistory.trans (by rw [hh.history])⟩
    · refine Or.inr ⟨?_, ?_⟩
      · rw [events, hchannel, hh.history]
      · simpa [Attended, hchannel] using hc
    · exact absurd hb ha
  | @closeWaits halt event e e' steps hterm hclose =>
    obtain ⟨hh, hQ⟩ := h
    rcases Emitter.close_cases hh.unclaimed hclose with ⟨hb, -⟩ | ⟨hb, -⟩ | ⟨-, hchannel, -⟩
    · exact absurd hb (by simp)
    · exact absurd hb (by simp)
    · refine ⟨?_, hterm, hQ⟩
      rw [events, hchannel, hh.history]
  | @closeEnds halt event e e' steps answer hput ha =>
    obtain ⟨hevents, hterm, hQ⟩ := h
    refine ⟨hQ, Or.inr ?_⟩
    rcases Emitter.put_cases hput with ⟨-, -, rfl⟩ | ⟨-, hc, rfl⟩ | ⟨hb, -⟩
    · exact Or.inl ⟨event, hterm, congrArg (· ++ [event]) hevents⟩
    · exact Or.inr ⟨hevents, by simp [Attended, hc]⟩
    · exact absurd hb ha

/-- What a sound scene says of its log: it can be brought to an end that satisfies `Q` without one
more event, and the stream holds what was accepted, with the terminal event behind it if the session
is over. -/
lemma Sound.log {σ : Scene} (h : Sound budget Q σ) :
    ∃ tail halt, (∀ step ∈ tail, step.accepted? = none) ∧ Q (tail ++ σ.steps) halt ∧
      (σ.events = acceptedIn σ.steps ∨ ∃ event, tail = [] ∧ halt.terminal? budget = some event ∧
        σ.events = acceptedIn σ.steps ++ [event]) := by
  obtain ⟨task, e, steps⟩ := σ
  cases task with
  | running rest =>
    obtain ⟨tail, halt, hquiet, hQ⟩ := h.2.exists_end
    exact ⟨tail, halt, hquiet, hQ, Or.inl h.1.history⟩
  | waiting rest =>
    obtain ⟨hends, step, hstep, hf, -⟩ := h
    obtain ⟨tail, halt, hquiet, hQ⟩ := hends.exists_end
    refine ⟨tail, halt, hquiet, hQ, Or.inl (hf.history.trans ?_)⟩
    exact acceptedIn_cons_of_none (Course.quiet_of_unanswered? hstep).1 _
  | halted halt => exact ⟨[], halt, by simp, h.2, Or.inl h.1.history⟩
  | closing event halt => exact ⟨[], halt, by simp, h.2.2, Or.inl h.1⟩
  | closed halt =>
    obtain ⟨hQ, hevents⟩ := h
    rcases hevents with ⟨-, hh⟩ | ⟨event, hterm, hevents⟩ | ⟨hevents, -⟩
    · exact ⟨[], halt, by simp, hQ, Or.inl hh.history⟩
    · exact ⟨[], halt, by simp, hQ, Or.inr ⟨event, rfl, hterm, hevents⟩⟩
    · exact ⟨[], halt, by simp, hQ, Or.inl hevents⟩

/-- If the course of a session ends as `Q` says, every scene that is reached is sound. -/
theorem sound_of_reached {settings : Settings} {id : Uuid} {source : String} {σ : Scene}
    (hends : (Course.ofSource settings id source).Ends Q [])
    (h : Reached settings id source σ) : Sound settings.timeoutMs Q σ := by
  induction h with
  | refl =>
    refine ⟨⟨⟨rfl, rfl, fun _ hs => absurd hs List.not_mem_nil⟩, fun n => ?_⟩, hends⟩
    simp [start, Emitter.new, notedIn]
  | tail _ hmove ih => exact ih.move hmove

end Scene
end ContractConversion
