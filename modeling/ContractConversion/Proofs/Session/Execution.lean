import ContractConversion.Proofs.Session.Log

/-!
# Runs are reached

A run follows the course of a session in given surroundings, which decide when the reader takes its
events and where it goes away. This is one order of the moves of a scene, so a run ends in a scene
that is reached (`Run.reached`), and everything that is shown of such scenes holds of every run.

A reader that reads everything takes the waiting events one by one (`takes_drain`). A writer that
had to wait finds room then, as the buffer is not empty (`put_drained`).
-/

namespace ContractConversion

open Relation (ReflTransGen)

/-- The scene of a run that is on its way. -/
def Progress.scene (p : Progress) (task : Task) : Scene where
  task := task
  emitter := p.emitter
  steps := p.steps

/-- The scene of a run that is over. -/
def Run.scene (r : Run) : Scene where
  task := .closed r.halt
  emitter := r.emitter
  steps := r.steps.reverse

/-! ## Reading everything -/

namespace Emitter

/-- The reader takes everything that waits. -/
def drained (e : Emitter) : Emitter :=
  { e with channel := e.channel.drain }

/-- The buffer has room for an event when it is empty, and the reader has got no more than there
was. -/
structure Sane (e : Emitter) : Prop where
  roomy : 0 < e.channel.capacity
  received_le : e.channel.received ≤ e.channel.history.length

variable {budget : ℕ} {task : Task} {e e' : Emitter} {steps : List Step}

/-- The reader takes the next event if there is one. -/
lemma receive_of_lt (hc : e.channel.connected = true)
    (hlt : e.channel.received < e.channel.history.length) :
    ∃ event, e.receive =
      ({ e with channel := { e.channel with received := e.channel.received + 1 } },
        some event) := by
  have hwaiting : e.channel.waiting = e.channel.history[e.channel.received] ::
      e.channel.history.drop (e.channel.received + 1) := List.drop_eq_getElem_cons hlt
  refine ⟨e.channel.history[e.channel.received], ?_⟩
  rw [receive, Channel.take, if_neg (by simp [hc]), hwaiting]

/-- Reading everything is taking one event after the other. -/
lemma takes_drain (hc : e.channel.connected = true) (hs : e.Sane) :
    ReflTransGen (Scene.Move budget) ⟨task, e, steps⟩ ⟨task, e.drained, steps⟩ := by
  obtain ⟨n, hn⟩ : ∃ n, e.channel.history.length = e.channel.received + n :=
    ⟨_, (Nat.add_sub_cancel' hs.received_le).symm⟩
  induction n generalizing e with
  | zero =>
    have hsame : e.drained = e := by
      rw [drained, Channel.drain, hn]
      rfl
    rw [hsame]
  | succ n ih =>
    obtain ⟨event, hreceive⟩ := receive_of_lt hc (by omega)
    refine ReflTransGen.head (.take hreceive) ?_
    exact ih hc ⟨hs.roomy, by dsimp only; omega⟩ (by dsimp only; omega)

lemma Sane.drained (hs : e.Sane) : e.drained.Sane :=
  ⟨hs.roomy, Nat.le_refl _⟩

/-- An empty buffer has room. -/
lemma put_drained {event : Event} {answer : Emitted} (hs : e.Sane)
    (h : e.drained.put event = (e', answer)) : answer ≠ .blocked := by
  rintro rfl
  have hfull := full_of_put_blocked h
  have hroomy := hs.roomy
  simp only [Emitter.drained, Channel.drain, Channel.waiting, List.drop_length, List.length_nil]
    at hfull
  omega

/-- What a call of the emitter does to the channel: nothing, or it has an event accepted. A call has
to wait only for a reader that is there. -/
structure Handed (e e' : Emitter) (answer : Emitted) : Prop where
  channel : e'.channel = e.channel ∨
    ∃ event, e'.channel = { e.channel with history := e.channel.history ++ [event] }
  connected : answer = .blocked → e.channel.connected = true

section Handed

variable {answer : Emitted}

lemma Handed.connected_eq (h : e.Handed e' answer) :
    e'.channel.connected = e.channel.connected := by
  rcases h.channel with h | ⟨event, h⟩ <;> rw [h]

lemma Handed.sane (h : e.Handed e' answer) (hs : e.Sane) : e'.Sane := by
  rcases h.channel with h | ⟨event, h⟩
  · exact ⟨h ▸ hs.roomy, h ▸ hs.received_le⟩
  · refine ⟨h ▸ hs.roomy, ?_⟩
    rw [h, List.length_append]
    exact Nat.le_add_right_of_le hs.received_le

lemma handed_put {event : Event} (h : e.put event = (e', answer)) : e.Handed e' answer := by
  rcases put_cases h with ⟨rfl, -, rfl⟩ | ⟨rfl, -, rfl⟩ | ⟨rfl, hc, rfl⟩
  · exact ⟨Or.inr ⟨event, rfl⟩, fun h => absurd h (by simp)⟩
  · exact ⟨Or.inl rfl, fun h => absurd h (by simp)⟩
  · exact ⟨Or.inl rfl, fun _ => hc⟩

lemma handed_emit {event : Event} (h : e.emit event = (e', answer)) : e.Handed e' answer := by
  rw [emit] at h
  split at h
  · obtain ⟨rfl, rfl⟩ := Prod.mk.inj h
    exact ⟨Or.inl rfl, fun h => absurd h (by simp)⟩
  · exact handed_put h

lemma handed_announce {a : Artifact} (h : e.announce a = (e', answer)) : e.Handed e' answer := by
  rw [announce] at h
  split at h
  · obtain ⟨rfl, rfl⟩ := Prod.mk.inj h
    exact ⟨Or.inl rfl, fun h => absurd h (by simp)⟩
  · dsimp only at h
    split at h
    · -- the name is noted, which does not touch the channel
      cases hemit :
        ({ e with sent := (note e.sent a.name).1 } : Emitter).emit (.artifactReady a) with
      | mk e₁ answer₁ =>
        have hhanded := handed_emit hemit
        rw [hemit] at h
        cases answer₁ <;> obtain ⟨rfl, rfl⟩ := Prod.mk.inj h <;>
          exact ⟨hhanded.channel, fun h => hhanded.connected (by cases h <;> rfl)⟩
    · obtain ⟨rfl, rfl⟩ := Prod.mk.inj h
      exact ⟨Or.inl rfl, fun h => absurd h (by simp)⟩

lemma handed_close {event : Event} (h : e.close event = (e', answer)) : e.Handed e' answer := by
  rw [close] at h
  split at h
  · obtain ⟨rfl, rfl⟩ := Prod.mk.inj h
    exact ⟨Or.inl rfl, fun h => absurd h (by simp)⟩
  · cases hput : ({ e with claimed := true } : Emitter).put event with
    | mk e₁ answer₁ =>
      have hhanded := handed_put hput
      rw [hput] at h
      cases answer₁ <;> obtain ⟨rfl, rfl⟩ := Prod.mk.inj h <;>
        exact ⟨hhanded.channel, fun h => hhanded.connected (by cases h <;> rfl)⟩

end Handed
end Emitter

/-! ## Following a course -/

/-- The time for the reader to go away has come. -/
def Surroundings.Departed (outside : Surroundings) (calls validations : ℕ) : Prop :=
  match outside.departure with
  | .never => False
  | .atStart => True
  | .atCall number => number ≤ calls
  | .atValidation number => number ≤ validations

/-- A reader that has gone does not come back. -/
lemma Surroundings.Departed.mono {outside : Surroundings}
    {calls calls' validations validations' : ℕ} (h : outside.Departed calls validations)
    (hcalls : calls ≤ calls') (hvalidations : validations ≤ validations') :
    outside.Departed calls' validations' := by
  rw [Departed] at h ⊢
  cases hdeparture : outside.departure with
  | never => rwa [hdeparture] at h
  | atStart => trivial
  | atCall number =>
    rw [hdeparture] at h
    exact Nat.le_trans h hcalls
  | atValidation number =>
    rw [hdeparture] at h
    exact Nat.le_trans h hvalidations

namespace Progress

/-- The reader went away only when its time had come. -/
structure Sane (outside : Surroundings) (p : Progress) : Prop where
  emitter : p.emitter.Sane
  departed : p.emitter.channel.connected = false → outside.Departed p.calls p.validations

variable {outside : Surroundings} {budget : ℕ} {p q : Progress}

lemma Sane.log (h : p.Sane outside) (step : Step) : (p.log step).Sane outside :=
  ⟨h.emitter, h.departed⟩

lemma scene_log (task : Task) (step : Step) (h : q.steps = p.steps) :
    (q.log step).scene task = ⟨task, q.emitter, step :: p.steps⟩ := by
  rw [scene, log, h]

/-- A reader that goes away now reads everything before. -/
lemma depart_reaches (now : Prop) [Decidable now] (task : Task) (hs : p.emitter.Sane)
    (hnow : now → p.emitter.channel.connected = true) :
    ReflTransGen (Scene.Move budget) (p.scene task) ((p.depart now).scene task) ∧
      (p.depart now).emitter.Sane ∧ (p.depart now).calls = p.calls ∧
      (p.depart now).validations = p.validations ∧
      ((p.depart now).emitter.channel.connected = false →
        now ∨ p.emitter.channel.connected = false) := by
  by_cases h : now
  · have hdepart : p.depart now = { p.read with emitter := p.read.emitter.disconnect } := by
      rw [depart, if_pos (by simpa using h)]
    rw [hdepart]
    refine ⟨.tail (Emitter.takes_drain (hnow h) hs) (.leave (hnow h)), ?_, rfl, rfl,
      fun _ => Or.inl h⟩
    exact ⟨hs.roomy, Nat.le_refl _⟩
  · have hdepart : p.depart now = p := by
      rw [depart, if_neg (by simpa using h)]
    rw [hdepart]
    exact ⟨.refl, hs, rfl, rfl, Or.inr⟩

/-- The reader may go away when a call to the outside begins. -/
lemma Sane.depart {now : Prop} [Decidable now] (hp : p.Sane outside) (task : Task)
    (hemitter : q.emitter = p.emitter) (hsteps : q.steps = p.steps)
    (hnow : now → outside.Departed q.calls q.validations ∧
      ¬ outside.Departed p.calls p.validations)
    (hcalls : p.calls ≤ q.calls) (hvalidations : p.validations ≤ q.validations) :
    ReflTransGen (Scene.Move budget) (p.scene task) ((q.depart now).scene task) ∧
      (q.depart now).Sane outside := by
  have hconnected : now → q.emitter.channel.connected = true := by
    intro h
    rw [hemitter]
    cases hc : p.emitter.channel.connected with
    | true => rfl
    | false => exact absurd (hp.departed hc) (hnow h).2
  have hscene : p.scene task = q.scene task := by
    rw [scene, scene, hemitter, hsteps]
  obtain ⟨hreach, hs, hsameCalls, hsameValidations, hgone⟩ :=
    depart_reaches now task (by rw [hemitter]; exact hp.emitter) hconnected
  rw [hscene]
  refine ⟨hreach, hs, fun hc => ?_⟩
  rw [hsameCalls, hsameValidations]
  rcases hgone hc with h | hc
  · exact (hnow h).1
  · exact (hp.departed (hemitter ▸ hc)).mono hcalls hvalidations

/-- The run when its next completion call begins. -/
def calling (outside : Surroundings) (p : Progress) : Progress :=
  ({ p with calls := p.calls + 1 } : Progress).depart (outside.departure = .atCall (p.calls + 1))

/-- The run when its next validation begins. -/
def validating (outside : Surroundings) (p : Progress) : Progress :=
  ({ p with validations := p.validations + 1 } : Progress).depart
    (outside.departure = .atValidation (p.validations + 1))

lemma Sane.calling (hp : p.Sane outside) (budget : ℕ) (task : Task) :
    ReflTransGen (Scene.Move budget) (p.scene task) ((p.calling outside).scene task) ∧
      (p.calling outside).Sane outside := by
  refine hp.depart task rfl rfl (fun h => ?_) (Nat.le_succ _) (Nat.le_refl _)
  rw [Surroundings.Departed, Surroundings.Departed, h]
  exact ⟨Nat.le_refl _, Nat.not_succ_le_self _⟩

lemma Sane.validating (hp : p.Sane outside) (budget : ℕ) (task : Task) :
    ReflTransGen (Scene.Move budget) (p.scene task) ((p.validating outside).scene task) ∧
      (p.validating outside).Sane outside := by
  refine hp.depart task rfl rfl (fun h => ?_) (Nat.le_refl _) (Nat.le_succ _)
  rw [Surroundings.Departed, Surroundings.Departed, h]
  exact ⟨Nat.le_refl _, Nat.not_succ_le_self _⟩

/-- Waiting for room is waiting for the reader to read everything. -/
lemma awaitRoom_some (h : p.awaitRoom outside budget = some q) :
    q.emitter = p.emitter.drained ∧ q.steps = p.steps ∧ q.calls = p.calls ∧
      q.validations = p.validations := by
  rw [awaitRoom] at h
  split at h
  · split at h
    · obtain rfl := Option.some.inj h
      exact ⟨rfl, rfl, rfl, rfl⟩
    · exact absurd h (by simp)
  · split at h
    · obtain rfl := Option.some.inj h
      exact ⟨rfl, rfl, rfl, rfl⟩
    · exact absurd h (by simp)

/-- How an event is handed over: at once, or not within the budget, or when the reader has read
everything. -/
inductive Writes (p : Progress) (event : Event) (act : Emitter → Emitter × Emitted) :
    Progress → Option Emitted → Prop
  | now {q : Progress} {answer : Emitted} (h : act p.emitter = (q.emitter, answer))
      (ha : answer ≠ .blocked) : Writes p event act q (some answer)
  | never {q : Progress} (h : act p.emitter = (q.emitter, .blocked)) : Writes p event act q none
  | later {q : Progress} {e : Emitter} {answer : Emitted} (h : act p.emitter = (e, .blocked))
      (hs : e.Sane) (hc : e.channel.connected = true)
      (hput : e.drained.put event = (q.emitter, answer)) (ha : answer ≠ .blocked) :
      Writes p event act q (some answer)

/-- Handing an event over is one of the three, and touches nothing but the emitter. -/
lemma write_spec {event : Event} {act : Emitter → Emitter × Emitted} {answer? : Option Emitted}
    (hp : p.Sane outside)
    (hact : ∀ e answer, act p.emitter = (e, answer) → p.emitter.Handed e answer)
    (h : p.write outside budget event act = (q, answer?)) :
    p.Writes event act q answer? ∧ q.steps = p.steps ∧ q.Sane outside := by
  rw [write] at h
  split at h
  · next e hblocked =>
    -- an event that has to wait has a reader that is there
    have hhanded := hact e .blocked hblocked
    have hconnected : e.channel.connected = true :=
      hhanded.connected_eq.trans (hhanded.connected rfl)
    split at h
    · obtain ⟨rfl, rfl⟩ := Prod.mk.inj h
      exact ⟨.never hblocked, rfl, hhanded.sane hp.emitter,
        fun hc => absurd hc (by simp [hconnected])⟩
    · next p₁ hroom =>
      obtain ⟨hemitter, hsteps, hcalls, hvalidations⟩ := awaitRoom_some hroom
      have hsane := hhanded.sane hp.emitter
      cases hput : p₁.emitter.put event with
      | mk e₁ answer =>
        rw [hput] at h
        obtain ⟨rfl, rfl⟩ := Prod.mk.inj h
        rw [hemitter] at hput
        have hhanded₁ := Emitter.handed_put hput
        refine ⟨.later hblocked hsane hconnected hput (Emitter.put_drained hsane hput), hsteps,
          hhanded₁.sane hsane.drained, fun hc => ?_⟩
        exact absurd (hhanded₁.connected_eq.symm.trans hc) (by simpa [Emitter.drained,
          Channel.drain] using hconnected)
  · next e answer hne hdone =>
    obtain ⟨rfl, rfl⟩ := Prod.mk.inj h
    have hhanded := hact e answer hdone
    refine ⟨.now hdone hne, rfl, hhanded.sane hp.emitter, fun hc => ?_⟩
    exact hp.departed (hhanded.connected_eq.symm.trans hc)

end Progress

lemma Course.follow_complete {outside : Surroundings} {budget : ℕ} {request : CompletionRequest}
    {next : Except OracleFault Completion → ℕ → Course} {p : Progress} :
    (Course.complete request next).follow outside budget p =
      match outside.complete (p.calling outside).calls request with
      | .answers answer =>
        (next answer 0).follow outside budget
          ((p.calling outside).log (.called request (some answer)))
      | .hangs =>
        ({ p.calling outside with clock := budget }.log (.called request none), .timedOut)
      | .panics => ((p.calling outside).log (.called request none), .panicked) := by
  rw [follow]
  rfl

lemma Course.follow_validate {outside : Surroundings} {budget : ℕ} {code : String}
    {next : Except OracleFault Validation → Course} {p : Progress} :
    (Course.validate code next).follow outside budget p =
      match outside.validate (p.validating outside).validations code with
      | .answers answer =>
        (next answer).follow outside budget
          ((p.validating outside).log (.validated code (some answer)))
      | .hangs =>
        ({ p.validating outside with clock := budget }.log (.validated code none), .timedOut)
      | .panics => ((p.validating outside).log (.validated code none), .panicked) := by
  rw [follow]
  rfl

/-- **Following a course is an order of moves** of the scene in which its task runs. -/
theorem Course.follow_reaches {outside : Surroundings} {budget : ℕ} {rest : Course}
    {p q : Progress} {halt : Halt} (hp : p.Sane outside)
    (h : rest.follow outside budget p = (q, halt)) :
    ReflTransGen (Scene.Move budget) (p.scene (.running rest)) (q.scene (.halted halt)) ∧
      q.Sane outside := by
  induction rest generalizing p with
  | finish ending =>
    obtain ⟨rfl, rfl⟩ := Prod.mk.inj h
    exact ⟨.single .finish, hp⟩
  | emit event next ih =>
    rw [follow] at h
    split at h
    · next p₁ hwrite =>
      obtain ⟨hwrites, hsteps, hsane⟩ :=
        Progress.write_spec hp (fun _ _ => Emitter.handed_emit) hwrite
      obtain ⟨rfl, rfl⟩ := Prod.mk.inj h
      rw [Progress.scene_log _ _ hsteps]
      cases hwrites with
      | never hact => exact ⟨.tail (.single (.emitWaits hact)) (.expireWaiting rfl), hsane.log _⟩
    · next p₁ answer hwrite =>
      obtain ⟨hwrites, hsteps, hsane⟩ :=
        Progress.write_spec hp (fun _ _ => Emitter.handed_emit) hwrite
      obtain ⟨hreach, hq⟩ := ih answer (hsane.log _) h
      rw [Progress.scene_log _ _ hsteps] at hreach
      refine ⟨?_, hq⟩
      cases hwrites with
      | now hact ha => exact .head (.emit hact ha) hreach
      | later hact hs hc hput ha =>
        -- the reader takes everything while the task waits
        exact .head (.emitWaits hact)
          ((Emitter.takes_drain hc hs).trans (.head (.emitEnds hput ha) hreach))
  | announce a next ih =>
    rw [follow] at h
    split at h
    · next p₁ hwrite =>
      obtain ⟨hwrites, hsteps, hsane⟩ :=
        Progress.write_spec hp (fun _ _ => Emitter.handed_announce) hwrite
      obtain ⟨rfl, rfl⟩ := Prod.mk.inj h
      rw [Progress.scene_log _ _ hsteps]
      cases hwrites with
      | never hact =>
        exact ⟨.tail (.single (.announceWaits hact)) (.expireWaiting rfl), hsane.log _⟩
    · next p₁ answer hwrite =>
      obtain ⟨hwrites, hsteps, hsane⟩ :=
        Progress.write_spec hp (fun _ _ => Emitter.handed_announce) hwrite
      obtain ⟨hreach, hq⟩ := ih answer (hsane.log _) h
      rw [Progress.scene_log _ _ hsteps] at hreach
      refine ⟨?_, hq⟩
      cases hwrites with
      | now hact ha => exact .head (.announce hact ha) hreach
      | later hact hs hc hput ha =>
        exact .head (.announceWaits hact)
          ((Emitter.takes_drain hc hs).trans (.head (.announceEnds hput ha) hreach))
  | look next ih =>
    obtain ⟨hreach, hq⟩ := ih _ (hp.log _) h
    exact ⟨.head .look hreach, hq⟩
  | complete request next ih =>
    -- the reader may go away first, and then the call is answered, hangs or breaks down
    obtain ⟨hcall, hsane⟩ := hp.calling budget (.running (.complete request next))
    rw [follow_complete] at h
    split at h
    · next answer hanswer =>
      obtain ⟨hreach, hq⟩ := ih answer 0 (hsane.log _) h
      exact ⟨hcall.trans (.head (.complete answer 0) hreach), hq⟩
    · obtain ⟨rfl, rfl⟩ := Prod.mk.inj h
      exact ⟨hcall.tail (.expire rfl), hsane.emitter, hsane.departed⟩
    · obtain ⟨rfl, rfl⟩ := Prod.mk.inj h
      exact ⟨hcall.tail (.panic rfl), hsane.log _⟩
  | validate code next ih =>
    obtain ⟨hcall, hsane⟩ := hp.validating budget (.running (.validate code next))
    rw [follow_validate] at h
    split at h
    · next answer hanswer =>
      obtain ⟨hreach, hq⟩ := ih answer (hsane.log _) h
      exact ⟨hcall.trans (.head (.validate answer) hreach), hq⟩
    · obtain ⟨rfl, rfl⟩ := Prod.mk.inj h
      exact ⟨hcall.tail (.expire rfl), hsane.emitter, hsane.departed⟩
    · obtain ⟨rfl, rfl⟩ := Prod.mk.inj h
      exact ⟨hcall.tail (.panic rfl), hsane.log _⟩
  | record entry next ih =>
    obtain ⟨hreach, hq⟩ := ih (hp.log _) h
    exact ⟨.head .record hreach, hq⟩
  | now next ih =>
    obtain ⟨hreach, hq⟩ := ih _ hp h
    exact ⟨.head (.now _) hreach, hq⟩

/-! ## Ending a session -/

namespace Progress

variable {budget : ℕ} {p : Progress} {halt : Halt}

/-- The supervisor hands in the terminal event, and waits for the reader if need be. -/
lemma terminate_reaches {event : Event} (hs : p.emitter.Sane)
    (hterm : halt.terminal? budget = some event) :
    ReflTransGen (Scene.Move budget) (p.scene (.halted halt))
        ((p.terminate event).scene (.closed halt)) ∧ (p.terminate event).emitter.Sane := by
  rw [terminate]
  split
  · next e hblocked =>
    have hhanded := Emitter.handed_close hblocked
    have hconnected : e.channel.connected = true :=
      hhanded.connected_eq.trans (hhanded.connected rfl)
    have hsane := hhanded.sane hs
    have hwait : ReflTransGen (Scene.Move budget) (p.scene (.halted halt))
        ⟨.closing event halt, e.drained, p.steps⟩ :=
      .head (.closeWaits hterm hblocked) (Emitter.takes_drain hconnected hsane)
    cases hput : e.drained.put event with
    | mk e₁ answer =>
      have hsane₁ := (Emitter.handed_put hput).sane hsane.drained
      have hread : ({ p with emitter := e } : Progress).read.emitter.put event = (e₁, answer) :=
        hput
      rw [hread]
      rcases Emitter.put_cases hput with ⟨rfl, -⟩ | ⟨rfl, hc, -⟩ | ⟨rfl, -⟩
      · exact ⟨hwait.tail (.closeEnds hput (by simp)), hsane₁.roomy, hsane₁.received_le⟩
      · exact absurd hconnected (by simpa [Emitter.drained, Channel.drain] using hc)
      · exact absurd rfl (Emitter.put_drained hsane hput)
  · next e answer hne hclose =>
    exact ⟨.single (.close hterm hclose hne), (Emitter.handed_close hclose).sane hs⟩

/-- The reader takes what is left. -/
lemma conclude_reaches (hs : p.emitter.Sane) (task : Task) :
    ReflTransGen (Scene.Move budget) (p.scene task) (p.conclude.scene task) := by
  rw [conclude]
  split
  · next hc => exact Emitter.takes_drain hc hs
  · exact .refl

lemma steps_terminate (p : Progress) (event : Event) : (p.terminate event).steps = p.steps := by
  rw [terminate]
  split
  · split <;> rfl
  · rfl

lemma steps_conclude (p : Progress) : p.conclude.steps = p.steps := by
  rw [conclude]
  split <;> rfl

end Progress

/-- The reader may go away before the session does anything. -/
lemma Progress.sane_start (outside : Surroundings) (budget : ℕ) (task : Task) :
    ReflTransGen (Scene.Move budget) (({} : Progress).scene task)
        ((({} : Progress).depart (outside.departure = .atStart)).scene task) ∧
      (({} : Progress).depart (outside.departure = .atStart)).Sane outside := by
  have hnew : ({} : Progress).emitter.Sane := ⟨by decide, by decide⟩
  obtain ⟨hreach, hs, -, -, hgone⟩ :=
    depart_reaches (outside.departure = .atStart) task hnew fun _ => rfl
  refine ⟨hreach, hs, fun hc => ?_⟩
  rcases hgone hc with h | h
  · rw [Surroundings.Departed, h]
    trivial
  · exact absurd h (by decide)

/-- **A run ends in a scene that is reached.** -/
theorem Run.reached (settings : Settings) (id : Uuid) (source : String) (outside : Surroundings) :
    Scene.Reached settings id source (Run.ofSource settings id source outside).scene := by
  obtain ⟨hstart, hsane⟩ := Progress.sane_start outside settings.timeoutMs
    (.running (Course.ofSource settings id source))
  cases hfollow : (Course.ofSource settings id source).follow outside settings.timeoutMs
    (({} : Progress).depart (outside.departure = .atStart)) with
  | mk p halt =>
    obtain ⟨hover, hp⟩ := Course.follow_reaches hsane hfollow
    have hreached : Scene.Reached settings id source (p.scene (.halted halt)) := hstart.trans hover
    simp only [Run.scene, Run.ofSource, hfollow, List.reverse_reverse]
    cases hterm : halt.terminal? settings.timeoutMs with
    | none =>
      have hclosed := hreached.tail (.quit hterm)
      have hconclude := hclosed.trans (Progress.conclude_reaches hp.emitter (.closed halt))
      rwa [Progress.scene, Progress.steps_conclude] at hconclude
    | some event =>
      obtain ⟨hterminate, hs⟩ := Progress.terminate_reaches hp.emitter hterm
      have hconclude := (hreached.trans hterminate).trans
        (Progress.conclude_reaches hs (.closed halt))
      rwa [Progress.scene, Progress.steps_conclude, Progress.steps_terminate] at hconclude

/-! ## A run with a repair -/

/-- An answer with contracts of the given names and codes. -/
def Reaction.contracts (contracts : List (String × String)) :
    Reaction (Except OracleFault Completion) :=
  .answers (.ok {
    data := .obj [("contracts", .arr (contracts.map fun (name, code) =>
      .obj [("code", .str code), ("name", .str name)]))]
    usage := {} })

/-- Surroundings in which the first attempt generates a vault and a faulty token, and the second one
repairs the token under another name and sends the vault again. -/
def Surroundings.repairing : Surroundings where
  complete number _ :=
    if number ≤ 2 then .answers (.ok { data := .obj [], usage := {} })
    else if number = 3 then .contracts [("Vault", "vault"), ("Token", "faulty")]
    else .contracts [("Vault", "other vault"), ("TokenV2", "token")]
  validate _ code :=
    .answers (.ok (if code = "faulty" then .invalid "no token" else .valid code.length none))

/-- The greatest identifier, which the run below has. -/
def Uuid.greatest : Uuid :=
  ⟨List.replicate 32 (Fin.last 15), rfl⟩

/-- The run in these surroundings. -/
def Run.repaired : Run :=
  Run.ofSource {} .greatest "two contracts" .repairing

lemma Run.repaired_reached :
    Scene.Reached {} .greatest "two contracts" Run.repaired.scene :=
  Run.reached _ _ _ _

end ContractConversion
