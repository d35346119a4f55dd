import ContractConversion.Proofs.Session.Genuine
import ContractConversion.Proofs.Wire.Event
import ContractConversion.Proofs.Wire.Portable

/-!
# The lines of a session are read back

A session's events go out as lines, and its reader decodes them. All that a session writes that
really runs fits its written form (`Point.Fits`, `History.fits`), so its reader gets every event as
it was emitted if the event is portable, and no other one (`Scene.read_back_iff_portable`). Two
kinds of events are not portable:

* artifacts whose metadata are null are read without metadata;
* JSON whose containers are close to the limit when it comes in is over the limit once the event is
  around it, and the line is refused.
-/

namespace ContractConversion

/-! ## What is written fits -/

/-- What is written from a point on fits its written form. A session that succeeds is within the
limit of attempts. -/
def Point.Fits : Point → Prop
  | writing event _ next => event.Fits ∧ next.Fits
  | failing _ failure => ∀ n, failure.phase? = some n → n < 2 ^ 8
  | succeeding s => s.attempt < 2 ^ 32
  | _ => True

section

variable {settings : Settings} {id : Uuid} {source : String} {log : List Step} {s : SessionState}

lemma fits_attempts {left : ℕ} {lastError : String} (hgenuine : Genuine settings log)
    (hleft : left + s.attempt = settings.attempts) :
    (Point.attempts settings left s lastError).Fits := by
  cases left with
  | zero => exact fun n hn => absurd hn (by simp [SessionFailure.phase?])
  | succ left =>
    have hattempt : s.nextAttempt.attempt < 2 ^ 32 := by
      refine hgenuine.attempt_lt ?_
      show s.attempt + 1 ≤ settings.attempts
      omega
    refine ⟨?_, trivial⟩
    rw [SessionState.attemptStart]
    split <;> exact hattempt

lemma fits_report {error : Option String} (hattempt : s.attempt < 2 ^ 32)
    (hle : ∀ a ∈ s.artifacts, a.attempt ≤ s.attempt) (hlength : s.artifacts.length < 2 ^ 64) :
    (s.report error).Fits := by
  have hcount : s.artifacts.countP (·.validated) ≤ s.artifacts.length := List.countP_le_length
  refine ⟨hattempt, fun line hline => ?_, Nat.lt_of_le_of_lt hcount hlength,
    Nat.lt_of_le_of_lt (Nat.sub_le _ _) hlength⟩
  obtain ⟨a, ha, rfl⟩ := List.mem_map.mp hline
  exact Nat.lt_of_le_of_lt (hle a ha) hattempt

/-- **At every point of a session that really runs, what is written next fits.** -/
theorem History.fits {point : Point} (h : History settings id source point log)
    (hgenuine : Genuine settings log) : point.Fits := by
  induction h with
  | opened => exact ⟨trivial, trivial⟩
  | wrote h ih => exact (ih (hgenuine.of_suffix (List.suffix_cons _ _))).2
  | analysed completion elapsed h hs ih =>
    exact ⟨hgenuine.data_fits called_mem_exchange, trivial, trivial⟩
  | notAnalysed h ih =>
    intro n hn
    obtain rfl := Option.some.inj hn
    decide
  | planned completion elapsed h hplan hs ih =>
    obtain ⟨-, -, hzero, -⟩ := h.tied
    subst hs
    exact ⟨trivial, fits_attempts hgenuine (congrArg (settings.attempts + ·) hzero)⟩
  | notPlanned h hplan ih =>
    intro n hn
    obtain rfl := Option.some.inj hn
    decide
  | applied h happly ih => trivial
  | @spent s log answer fault left lastError elapsed h happly ih =>
    obtain ⟨htied, -, -, hleft, -⟩ := h.tied
    have hattempt : s.attempt < 2 ^ 32 := hgenuine.attempt_lt (by omega)
    have hearlier : Genuine settings log := hgenuine.of_suffix ⟨[_, _, _], rfl⟩
    have hlength : s.artifacts.length < 2 ^ 64 := hearlier.length_lt h.keeps htied.wellFormed
    exact ⟨fits_report (s := s.charged answer) hattempt htied.le_attempt hlength,
      fits_attempts hgenuine hleft⟩
  | unmerged h happly ih => exact fun n hn => absurd hn (by simp [SessionFailure.phase?])
  | skipped h hdue ih => trivial
  | judged h hdue ih => trivial
  | @checked s s' log left lastError checked h hs ih =>
    obtain ⟨htied, hleft, -, -⟩ := h.tied
    obtain ⟨hkeeps, -⟩ := h.keeps
    rw [List.append_nil] at htied
    subst hs
    have hattempt : s.attempt < 2 ^ 32 := hgenuine.attempt_lt (by omega)
    have hsame : ({ s with artifacts := checked.reverse } : SessionState).Keeps log :=
      hkeeps.of_state rfl rfl rfl
    exact ⟨fits_report hattempt htied.le_attempt (hgenuine.length_lt hsame htied.wellFormed),
      trivial⟩
  | announced h ha ih => trivial
  | passedOver h ha ih => trivial
  | succeeded h hvalid ih =>
    obtain ⟨-, -, hleft, -, -⟩ := h.tied
    exact hgenuine.attempt_lt (by omega)
  | retried h hvalid ih =>
    obtain ⟨-, -, hleft, -, -⟩ := h.tied
    exact fits_attempts hgenuine hleft

/-- An artifact that is announced fits unless its metadata are null. -/
lemma fits_announced {left : ℕ} {lastError : String} {a : Artifact} {todo : List Artifact}
    (h : History settings id source (.announcing left lastError s (a :: todo)) log)
    (hgenuine : Genuine settings log) (hvalid : a.validated = true)
    (hnull : a.metadata ≠ some .null) : a.Fits := by
  obtain ⟨htied, -, hleft, -, hsuffix⟩ := h.tied
  obtain ⟨hkeeps, -⟩ := h.keeps
  have ha : a ∈ s.artifacts := hsuffix.subset List.mem_cons_self
  have hvouched : Vouched log a := (h.proven a ha).vouched hvalid
  refine hgenuine.member_fits hkeeps htied.wellFormed (fun b hb => ?_) ha hvouched hnull
  exact hgenuine.attempt_lt (Nat.le_trans (htied.le_attempt b hb) (by omega))

/-- The result of a session fits unless an artifact has null for its metadata. -/
lemma fits_result {time : Time.Instant} (h : History settings id source (.succeeding s) log)
    (hgenuine : Genuine settings log) (htime : time.Valid)
    (hnull : ∀ a ∈ s.artifacts, a.metadata ≠ some .null) : (s.result time).Fits := by
  obtain ⟨htied, hvalid⟩ := h.tied
  have hkeeps : s.Keeps log := h.keeps
  have hattempt : s.attempt < 2 ^ 32 := h.fits hgenuine
  refine ⟨fun a ha => ?_, ?_, hattempt, htime⟩
  · have hvouched : Vouched log a :=
      (h.proven a ha).vouched (SessionState.validated_of_allValid hvalid ha)
    refine hgenuine.member_fits hkeeps htied.wellFormed (fun b hb => ?_) ha hvouched (hnull a ha)
    exact Nat.lt_of_le_of_lt (htied.le_attempt b hb) hattempt
  · intro v hv
    obtain ⟨mode, -, hb⟩ := hkeeps.exists_blueprint htied.wellFormed hvalid
    exact hgenuine.deployment_fits hb v hv

/-- No artifact of a portable event has null for its metadata. -/
lemma Event.Portable.metadata_ne_null {e : Event} (h : e.Portable) :
    ∀ a ∈ e.delivered, a.metadata ≠ some .null := by
  intro a ha hnull
  cases e with
  | artifactReady b =>
    obtain rfl := List.mem_singleton.mp ha
    exact (h .null hnull).1 rfl
  | done result => exact (h.2 a ha .null hnull).1 rfl
  | _ => exact absurd ha List.not_mem_nil

/-- The terminal event of a session fits, under the same conditions. -/
lemma fits_terminal {halt : Halt} {budget : ℕ} {e : Event}
    (h : Halted settings id source log halt) (hterminal : halt.terminal? budget = some e)
    (hgenuine : Genuine settings log)
    (hclock : ∀ result, e = .done result → result.finishedAt.Valid)
    (hnull : ∀ a ∈ e.delivered, a.metadata ≠ some .null) : e.Fits := by
  rcases halt with (result | ⟨failure, phase⟩ | _) | _ | _
  · obtain rfl := Option.some.inj hterminal
    obtain ⟨s, before, entry, time, hhistory, rfl, rfl⟩ := h.completed_inv
    exact fits_result hhistory (hgenuine.of_suffix (List.suffix_cons _ _)) (hclock _ rfl) hnull
  · obtain rfl := Option.some.inj hterminal
    obtain ⟨s, before, entry, hhistory, rfl, rfl⟩ := h.failed_inv
    have hfailure : ∀ n, failure.phase? = some n → n < 2 ^ 8 :=
      hhistory.fits (hgenuine.of_suffix (List.suffix_cons _ _))
    intro n hn
    rcases Option.or_eq_some_iff.mp hn with hn | ⟨-, hn⟩
    · exact hfailure n hn
    · cases hstatus : s.status <;> simp [hstatus, Status.phase?] at hn <;> omega
  · exact absurd hterminal (by simp [Halt.terminal?, Ending.terminal?])
  · obtain rfl := Option.some.inj hterminal
    exact fun n hn => absurd hn (by simp)
  · obtain rfl := Option.some.inj hterminal
    exact fun n hn => absurd hn (by simp)

end

/-! ## What the reader gets -/

namespace Scene

variable {settings : Settings} {id : Uuid} {source : String} {σ : Scene}

/-- A portable event of a session that really runs fits its written form. -/
lemma fits_of_reached (h : Reached settings id source σ) (hgenuine : Genuine settings σ.steps)
    {e : Event} (he : e ∈ σ.events) (hclock : ∀ result, e = .done result → result.finishedAt.Valid)
    (hportable : e.Portable) : e.Fits := by
  have hnull : ∀ a ∈ e.delivered, a.metadata ≠ some .null := hportable.metadata_ne_null
  have halong : Along (fun log event => Genuine settings log →
      (∀ a ∈ event.delivered, a.metadata ≠ some .null) → event.Fits) σ.steps := by
    refine along_of_histories (fun _ _ hhistory => hhistory.along_writing
      (fun _ _ _ _ hwriting hgenuine _ => (hwriting.fits hgenuine).1) ?_) h
    intro left lastError s a todo log hannouncing hannounces hgenuine hnull
    exact fits_announced hannouncing hgenuine hannounces.1 (hnull a (List.mem_singleton_self a))
  have haccepted : e ∈ acceptedIn σ.steps → e.Fits := by
    intro hmem
    obtain ⟨before, after, hsplit⟩ := List.append_of_mem hmem
    obtain ⟨earlier, hsuffix, -, hfits⟩ := halong.of_split hsplit
    exact hfits (hgenuine.of_suffix hsuffix) hnull
  rcases (events_of_reached h).2 with hevents | ⟨halt, event, hhalted, hterminal, -, hevents⟩
  · exact haccepted (hevents ▸ he)
  · rcases List.mem_append.mp (hevents ▸ he) with hmem | hmem
    · exact haccepted hmem
    · obtain rfl := List.mem_singleton.mp hmem
      exact fits_terminal hhalted hterminal hgenuine hclock hnull

/-- **The reader of a session gets its portable events as they are, and no others.** Whatever the
answers, as long as JSON in them comes from texts and has no numbers but integers of 64 bits: an
event that the session emits is read back from its line exactly if it has no artifact with null for
its metadata and carries no JSON that stands too deep with the containers of the event around it. -/
theorem read_back_iff_portable (h : Reached settings id source σ)
    (hgenuine : Genuine settings σ.steps) {e : Event} (he : e ∈ σ.events)
    (hclock : ∀ result, e = .done result → result.finishedAt.Valid) :
    Event.ofLine e.toLine = .ok e ↔ e.Portable := by
  constructor
  · exact Event.portable_of_ofLine
  · intro hportable
    have hfits : e.Fits := fits_of_reached h hgenuine he hclock hportable
    exact Event.ofLine_toLine hfits hportable.depth_encode

/-- A result with printed metadata is read back. -/
theorem read_back_iff_portable_printed :
    let contract : Artifact :=
      { name := "main", code := "contract", validated := true, size := some 8,
        metadata := some (.arr [.num (.int 1)]), attempt := 1 }
    let result : ConversionResult :=
      { sessionId := .greatest, mode := .single, artifacts := [contract], attempts := 1,
        usage := ⟨3, 3⟩, finishedAt := default }
    Event.done result ∈ (Run.printed "[1]").scene.events ∧
      Event.ofLine (Event.done result).toLine = .ok (.done result) := by
  intro contract result
  have hmem : Event.done result ∈ (Run.printed "[1]").scene.events := by decide +kernel
  have hgenuine : Genuine {} (Run.printed "[1]").scene.steps := by
    have houtput : Configuration.Validator.metadata? "[1]" = some (.arr [.num (.int 1)]) := by
      decide +kernel
    refine Run.genuine_printed (fun v hv => ?_) (by decide +kernel)
    obtain rfl := Option.some.inj (houtput.symm.trans hv)
    have hone : -2 ^ 63 ≤ (1 : ℤ) ∧ (1 : ℤ) < 2 ^ 64 := by decide
    exact ⟨hone, trivial⟩
  have hclock : ∀ r, Event.done result = .done r → r.finishedAt.Valid := by
    intro r hr
    obtain rfl := Event.done.inj hr
    exact ⟨by decide, by decide, by decide⟩
  refine ⟨hmem, (read_back_iff_portable (Run.printed_reached _) hgenuine hmem hclock).mpr ?_⟩
  refine ⟨fun v hv => absurd hv (by simp [result]), fun a ha v hv => ?_⟩
  obtain rfl := List.mem_singleton.mp ha
  obtain rfl := Option.some.inj hv
  exact ⟨by simp, by decide⟩

/-- Where the validator printed null, not even the result is read back. -/
theorem not_read_back_of_printed_null :
    let contract : Artifact :=
      { name := "main", code := "contract", validated := true, size := some 8,
        metadata := some .null, attempt := 1 }
    let result : ConversionResult :=
      { sessionId := .greatest, mode := .single, artifacts := [contract], attempts := 1,
        usage := ⟨3, 3⟩, finishedAt := default }
    Reached {} .greatest "one contract" (Run.printed "null").scene ∧
      Genuine {} (Run.printed "null").scene.steps ∧
      Event.done result ∈ (Run.printed "null").scene.events ∧ result.finishedAt.Valid ∧
      Event.ofLine (Event.done result).toLine ≠ .ok (.done result) := by
  intro contract result
  have hgenuine : Genuine {} (Run.printed "null").scene.steps := by
    have houtput : Configuration.Validator.metadata? "null" = some .null := by decide +kernel
    refine Run.genuine_printed (fun v hv => ?_) (by decide +kernel)
    obtain rfl := Option.some.inj (houtput.symm.trans hv)
    trivial
  refine ⟨Run.printed_reached _, hgenuine, by decide +kernel, ⟨by decide, by decide, by decide⟩,
    fun h => ?_⟩
  have hcarried : Carried 5 contract.metadata :=
    (Event.portable_of_ofLine h).2 contract List.mem_cons_self
  exact (hcarried .null rfl).1 rfl

end Scene

end ContractConversion
