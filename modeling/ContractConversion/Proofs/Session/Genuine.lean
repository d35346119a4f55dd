import ContractConversion.Proofs.Oracle.Answers
import ContractConversion.Proofs.Session.Delivery
import ContractConversion.Proofs.Session.Reports

/-!
# Sessions that really run

`Genuine` says of a log what holds of every session that really runs: its JSON was read from texts,
and its counts fit their types. What such a session got from outside can be written
(`Genuine.data_fits`, `Genuine.deployment_fits`), and so can the artifacts
that the validator vouches for, unless their metadata are null (`Genuine.member_fits`).

A run is genuine if its surroundings read their answers from texts (`Run.genuine`).
-/

namespace ContractConversion

/-! ## Sessions that really run -/

/-- What holds of the log of every session that really runs. The data of completions are extracted
from texts and metadata are what the validator prints, without numbers other than integers of 64
bits. The limit of attempts has 32 bits; the number of contracts and the sizes have 64. -/
structure Genuine (settings : Settings) (log : List Step) : Prop where
  attempts : settings.maxAttempts < 2 ^ 32
  names : ∀ b, blueprintIn log = some b → b.names.length < 2 ^ 64
  reply : ∀ request completion, Step.called request (some (.ok completion)) ∈ log →
    (∃ text, Extraction.extract text = .ok completion.data) ∧ completion.data.Integral
  verdict : ∀ code size metadata, Step.validated code (some (.ok (.valid size metadata))) ∈ log →
    size < 2 ^ 64 ∧ (∃ output, Configuration.Validator.metadata? output = metadata) ∧
      ∀ v, metadata = some v → v.Integral

/-- The log of an exchange has its reply. -/
lemma called_mem_exchange {s : SessionState} {source : String} {quest : Quest} {elapsed : ℕ}
    {answer : Except OracleFault Completion} {log : List Step} :
    .called (quest.request source s) (some answer) ∈ s.exchange source quest answer elapsed log :=
  List.mem_cons_of_mem _ List.mem_cons_self

namespace Genuine

variable {settings : Settings} {log : List Step} {s : SessionState}

lemma of_suffix {earlier : List Step} (h : Genuine settings log) (hlog : earlier <:+ log) :
    Genuine settings earlier := by
  exact ⟨h.attempts, fun b hb => h.names b (blueprintIn_of_suffix hlog hb),
    fun request completion hmem => h.reply request completion (hlog.subset hmem),
    fun code size metadata hmem => h.verdict code size metadata (hlog.subset hmem)⟩

/-- Within the limit of attempts their numbers have 32 bits. -/
lemma attempt_lt (h : Genuine settings log) {attempt : ℕ} (hle : attempt ≤ settings.attempts) :
    attempt < 2 ^ 32 := by
  have hmax := h.attempts
  rw [Settings.attempts] at hle
  omega

/-- The data of a completion can be written. -/
lemma data_fits (h : Genuine settings log) {request : CompletionRequest} {completion : Completion}
    (hmem : .called request (some (.ok completion)) ∈ log) : completion.data.Fits := by
  obtain ⟨⟨text, htext⟩, hintegral⟩ := h.reply request completion hmem
  exact ⟨Extraction.normal_of_extract htext, hintegral⟩

/-- The deployment data of the blueprint can be written. -/
lemma deployment_fits (h : Genuine settings log) {b : Blueprint} (hb : blueprintIn log = some b) :
    OptionalFits b.deployment := by
  obtain ⟨request, completion, output, plan, hmem, hclassify, rfl⟩ := reply_of_blueprintIn hb
  exact Generation.deployment_of_classify hclassify (h.data_fits hmem)

/-- A session has no more artifacts than its blueprint has names. -/
lemma length_lt (h : Genuine settings log) (hkeeps : s.Keeps log) (hwell : s.WellFormed) :
    s.artifacts.length < 2 ^ 64 := by
  have hnames := congrArg List.length (hkeeps.names hwell)
  rw [Repair.names, List.length_map] at hnames
  cases hb : blueprintIn log with
  | none =>
    rw [hb] at hnames
    rw [← hnames]
    exact Nat.two_pow_pos 64
  | some b =>
    rw [hb] at hnames
    rw [← hnames]
    exact h.names b hb

/-- An artifact that the validator vouches for can be written unless its metadata are null. -/
lemma artifact_fits (h : Genuine settings log) {a : Artifact} (hvouched : Vouched log a)
    (horder : a.order < 2 ^ 64) (hattempt : a.attempt < 2 ^ 32) (hnull : a.metadata ≠ some .null) :
    a.Fits := by
  obtain ⟨size, earlier, hsize, hsuffix, -⟩ := hvouched.answered
  obtain ⟨hlt, ⟨output, houtput⟩, hintegral⟩ :=
    h.verdict a.code size a.metadata (hsuffix.subset List.mem_cons_self)
  refine ⟨horder, fun n hn => ?_, fun v hv => ?_, hattempt⟩
  · obtain rfl := Option.some.inj (hsize.symm.trans hn)
    exact hlt
  · refine ⟨⟨Configuration.Validator.normal_of_metadata (houtput.trans hv), hintegral v hv⟩, ?_⟩
    rintro rfl
    exact hnull hv

/-- The artifacts of a session can be written if the validator vouches for them. -/
lemma member_fits (h : Genuine settings log) (hkeeps : s.Keeps log) (hwell : s.WellFormed)
    (hattempt : ∀ a ∈ s.artifacts, a.attempt < 2 ^ 32) {a : Artifact} (ha : a ∈ s.artifacts)
    (hvouched : Vouched log a) (hnull : a.metadata ≠ some .null) : a.Fits := by
  refine h.artifact_fits hvouched ?_ (hattempt a ha) hnull
  obtain ⟨i, hi, rfl⟩ := List.mem_iff_getElem.mp ha
  rw [hwell.place i _ (List.getElem?_eq_getElem hi)]
  exact Nat.lt_trans hi (h.length_lt hkeeps hwell)

end Genuine

/-! ## The answers of a run -/

/-- What was answered at this step comes from the surroundings. -/
def Step.Answered (outside : Surroundings) : Step → Prop
  | .called request (some answer) => ∃ number, outside.complete number request = .answers answer
  | .validated code (some answer) => ∃ number, outside.validate number code = .answers answer
  | _ => True

section

variable {outside : Surroundings} {budget : ℕ} {p q : Progress} {halt : Halt}

/-- Handing over an event takes no step. -/
lemma Progress.steps_write {event : Event} {act : Emitter → Emitter × Emitted}
    {answer : Option Emitted} (h : p.write outside budget event act = (q, answer)) :
    q.steps = p.steps := by
  rw [write] at h
  split at h
  · split at h
    · obtain ⟨rfl, -⟩ := Prod.mk.inj h
      rfl
    · next e hblocked r hroom =>
      obtain ⟨rfl, -⟩ := Prod.mk.inj h
      exact (awaitRoom_some hroom).2.1
  · obtain ⟨rfl, -⟩ := Prod.mk.inj h
    rfl

/-- A reader that goes away is no step. -/
lemma Progress.steps_depart (p : Progress) (now : Bool) : (p.depart now).steps = p.steps := by
  rw [depart]
  split <;> rfl

/-- The steps so far come from the surroundings. -/
def Progress.Answered (outside : Surroundings) (p : Progress) : Prop :=
  ∀ step ∈ p.steps, step.Answered outside

lemma Progress.Answered.log (h : p.Answered outside) (step : Step)
    (hstep : step.Answered outside) : (p.log step).Answered outside :=
  List.forall_mem_cons.mpr ⟨hstep, h⟩

lemma Progress.Answered.write {event : Event} {act : Emitter → Emitter × Emitted}
    {answer : Option Emitted} (hp : p.Answered outside)
    (h : p.write outside budget event act = (q, answer)) : q.Answered outside := by
  rwa [Answered, steps_write h]

/-- **What is answered on the way along a course comes from the surroundings.** -/
theorem Course.follow_answered {rest : Course} (hp : p.Answered outside)
    (h : rest.follow outside budget p = (q, halt)) : q.Answered outside := by
  induction rest generalizing p with
  | finish ending =>
    obtain ⟨rfl, -⟩ := Prod.mk.inj h
    exact hp
  | emit event next ih =>
    rw [follow] at h
    split at h
    · next r hwrite =>
      obtain ⟨rfl, -⟩ := Prod.mk.inj h
      exact (hp.write hwrite).log (.emitted event none) trivial
    · next r answer hwrite =>
      exact ih answer ((hp.write hwrite).log (.emitted event (some answer)) trivial) h
  | announce a next ih =>
    rw [follow] at h
    split at h
    · next r hwrite =>
      obtain ⟨rfl, -⟩ := Prod.mk.inj h
      exact (hp.write hwrite).log (.announced a none) trivial
    · next r answer hwrite =>
      exact ih answer ((hp.write hwrite).log (.announced a (some answer)) trivial) h
  | look next ih => exact ih _ (hp.log (.looked _) trivial) h
  | complete request next ih =>
    have hcall : (p.calling outside).Answered outside := by
      rwa [Progress.Answered, Progress.calling, Progress.steps_depart]
    rw [follow_complete] at h
    split at h
    · next answer hanswer =>
      exact ih answer 0 (hcall.log (.called request (some answer)) ⟨_, hanswer⟩) h
    · obtain ⟨rfl, -⟩ := Prod.mk.inj h
      exact hcall.log (.called request none) trivial
    · obtain ⟨rfl, -⟩ := Prod.mk.inj h
      exact hcall.log (.called request none) trivial
  | validate code next ih =>
    have hcall : (p.validating outside).Answered outside := by
      rwa [Progress.Answered, Progress.validating, Progress.steps_depart]
    rw [follow_validate] at h
    split at h
    · next answer hanswer =>
      exact ih answer (hcall.log (.validated code (some answer)) ⟨_, hanswer⟩) h
    · obtain ⟨rfl, -⟩ := Prod.mk.inj h
      exact hcall.log (.validated code none) trivial
    · obtain ⟨rfl, -⟩ := Prod.mk.inj h
      exact hcall.log (.validated code none) trivial
  | record entry next ih => exact ih (hp.log (.recorded entry) trivial) h
  | now next ih => exact ih _ hp h

end

/-- A run is genuine if its surroundings read their answers from texts without numbers other than
integers of 64 bits, and its counts fit their types. -/
theorem Run.genuine {settings : Settings} {id : Uuid} {source : String} {outside : Surroundings}
    (hcomplete : ∀ number request completion,
      outside.complete number request = .answers (.ok completion) →
      (∃ text, Extraction.extract text = .ok completion.data) ∧ completion.data.Integral)
    (hvalidate : ∀ number code size metadata,
      outside.validate number code = .answers (.ok (.valid size metadata)) →
      size < 2 ^ 64 ∧ (∃ output, Configuration.Validator.metadata? output = metadata) ∧
        ∀ v, metadata = some v → v.Integral)
    (hattempts : settings.maxAttempts < 2 ^ 32)
    (hnames : ∀ b, blueprintIn (ofSource settings id source outside).scene.steps = some b →
      b.names.length < 2 ^ 64) :
    Genuine settings (ofSource settings id source outside).scene.steps := by
  have hanswered : ∀ step ∈ (ofSource settings id source outside).scene.steps,
      step.Answered outside := by
    cases hfollow : (Course.ofSource settings id source).follow outside settings.timeoutMs
      (({} : Progress).depart (outside.departure = .atStart)) with
    | mk p halt =>
      have hstart : (({} : Progress).depart (outside.departure = .atStart)).Answered outside := by
        rw [Progress.Answered, Progress.steps_depart]
        exact fun step hstep => absurd hstep List.not_mem_nil
      have hp : p.Answered outside := Course.follow_answered hstart hfollow
      simp only [Run.scene, Run.ofSource, hfollow, List.reverse_reverse]
      exact hp
  refine ⟨hattempts, hnames, fun request completion hmem => ?_,
    fun code size metadata hmem => ?_⟩
  · obtain ⟨number, hanswer⟩ := hanswered _ hmem
    exact hcomplete number request completion hanswer
  · obtain ⟨number, hanswer⟩ := hanswered _ hmem
    exact hvalidate number code size metadata hanswer

/-! ## A run with one contract -/

/-- Surroundings in which every attempt gives the same contract, and the validator prints the text
on it. -/
def Surroundings.printing (output : String) : Surroundings where
  complete number _ := .answers do
    let data ← Extraction.extract
      (if number ≤ 2 then "\x7b\x7d" else "\x7b\"code\":\"contract\"\x7d")
    return { data, usage := ⟨1, 1⟩ }
  validate _ _ := .answers (.ok (.valid 8 (Configuration.Validator.metadata? output)))

/-- The run in these surroundings. -/
def Run.printed (output : String) : Run :=
  Run.ofSource {} .greatest "one contract" (.printing output)

lemma Run.printed_reached (output : String) :
    Scene.Reached {} .greatest "one contract" (Run.printed output).scene :=
  Run.reached _ _ _ _

lemma Run.genuine_printed {output : String}
    (houtput : ∀ v, Configuration.Validator.metadata? output = some v → v.Integral)
    (hnames : ∀ b, blueprintIn (Run.printed output).scene.steps = some b →
      b.names.length < 2 ^ 64) :
    Genuine {} (Run.printed output).scene.steps := by
  refine Run.genuine (fun number request completion h => ?_) (fun number code size metadata h => ?_)
    (by decide) hnames
  · obtain ⟨data, hdata, hcompletion⟩ := bind_eq_ok.mp (Reaction.answers.inj h)
    obtain rfl := Except.ok.inj hcompletion
    refine ⟨⟨_, hdata⟩, ?_⟩
    have hempty : Extraction.extract "\x7b\x7d" = .ok (.obj []) := by decide +kernel
    have hcode : Extraction.extract "\x7b\"code\":\"contract\"\x7d" =
        .ok (.obj [("code", .str "contract")]) := by decide +kernel
    split at hdata
    · obtain rfl := Except.ok.inj (hempty.symm.trans hdata)
      trivial
    · obtain rfl := Except.ok.inj (hcode.symm.trans hdata)
      exact ⟨trivial, trivial⟩
  · obtain ⟨rfl, rfl⟩ := Validation.valid.inj (Except.ok.inj (Reaction.answers.inj h))
    exact ⟨by decide, ⟨output, rfl⟩, houtput⟩

end ContractConversion
