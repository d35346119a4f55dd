import ContractConversion.Proofs.Session.Calls

/-!
# What a session asks for

A session sends one request for the analysis, one for the plan and one for each attempt. Until a
reply of the attempts can be classified it asks to generate everything. From then on it asks to
repair what the last report does not call validated, with the code that was refused last
(`ToRepair`). Within an attempt it has each artifact validated that the reply of the attempt brings,
once and in order, and none that was validated before.

`Step.Scoped` says this of a step and the log before it; `Scene.calls_scoped` says that all steps of
a session are scoped.
-/

namespace ContractConversion

/-- The artifacts that the next request is about if there is something to repair: those that the
last report does not call validated, in order, each with the code and the objection of its last
check. All of these checks were made in the same attempt, the last one in which anything was
checked. -/
structure ToRepair (log : List Step) (batch : List Artifact) : Prop where
  lines : batch.map (·.status) = (reportedIn (acceptedIn log)).filter fun line => !line.validated
  unaccepted : ∀ a ∈ batch, a.name ∉ acceptedNamesIn (acceptedIn log)
  sourced : ∀ a ∈ batch, Sourced log a
  refused : ∃ m, (∀ n, m < n → checksIn n log = []) ∧ (∀ a ∈ batch, a.attempt = m) ∧
    batch.map (fun a => (a.code, a.errorText)) = refusals (checksIn m log)

/-- The request that is due: the analysis first, then the plan, then one for each attempt. -/
def Asked (source : String) (log : List Step) (request : CompletionRequest) : Prop :=
  match (requestsIn log).length with
  | 0 => attemptIn (acceptedIn log) = 0 ∧ request = Prompt.analysis source
  | 1 =>
    attemptIn (acceptedIn log) = 0 ∧ request = Prompt.plan source (analysisIn (acceptedIn log))
  | n + 2 =>
    attemptIn (acceptedIn log) = n + 1 ∧
      match modeIn log with
      | none =>
        request = Prompt.generate source (analysisIn (acceptedIn log)) (planIn (acceptedIn log))
      | some mode => ∃ batch, ToRepair log batch ∧ request = Prompt.repair mode batch

/-- The code that is due for the validator: in an attempt whose reply was read, and which has not
been reported on, the code behind those that were checked already. -/
def Due (log : List Step) (code : String) : Prop :=
  (requestsIn log).length = attemptIn (acceptedIn log) + 2 ∧
    (∃ output, replyIn log = some (.ok output)) ∧
    (∀ last, reportIn (acceptedIn log) = some last → last.attempt < attemptIn (acceptedIn log)) ∧
    ∃ produced, Produced log produced ∧
      (checksIn (attemptIn (acceptedIn log)) log).map (·.1) ++ [code] <+: produced.map (·.code)

/-- The step asks the outside for what is due, or reports on what was asked. -/
def Step.Scoped (source : String) (log : List Step) : Step → Prop
  | .called request _ => Asked source log request
  | .validated code _ => Due log code
  | .emitted event _ => event.Accounts log
  | _ => True

section

variable {settings : Settings} {id : Uuid} {source : String} {s : SessionState} {log : List Step}

/-- What a state that was reported is to have repaired. -/
lemma toRepair_of_checked {left m : ℕ} {lastError : String}
    (h : History settings id source (.asking (.attempt left lastError) s) log)
    (hchecked : s.Checked m log) : ToRepair log s.retryBatch := by
  obtain ⟨htied, hreported, -⟩ := h.tied
  refine ⟨?_, fun a ha hname => ?_, fun a ha => ?_, m, hchecked.later, hchecked.attempt,
    hchecked.refused.symm⟩
  · rw [hreported, SessionState.retryBatch, List.filter_map]
    rfl
  · obtain ⟨ha, hvalid⟩ := List.mem_filter.mp ha
    rw [acceptedNamesIn_of_reported hreported] at hname
    obtain ⟨b, hb, hsame⟩ := List.mem_map.mp hname
    obtain ⟨hb, hvalid'⟩ := SessionState.mem_accepted.mp hb
    -- the names are distinct, so the artifact itself would be accepted
    rw [← Repair.eq_of_name_eq htied.wellFormed.nodup_names hb ha hsame, hvalid'] at hvalid
    exact absurd hvalid (by simp)
  · exact (h.proven a (List.mem_of_mem_filter ha)).sourced

/-- What a session asks for is due. -/
lemma asked_of_history {quest : Quest} (h : History settings id source (.asking quest s) log) :
    Asked source log (quest.request source s) := by
  have hcalls := h.calls
  cases quest with
  | analysis =>
    obtain ⟨htied, -, hzero, -⟩ := h.tied
    rw [Asked, hcalls.1.requests]
    exact ⟨htied.attempt.symm.trans hzero, rfl⟩
  | plan =>
    obtain ⟨htied, -, hzero, -⟩ := h.tied
    rw [Asked, hcalls.1.requests, ← hcalls.1.analysis]
    exact ⟨htied.attempt.symm.trans hzero, rfl⟩
  | attempt left lastError =>
    obtain ⟨hcounts, ⟨m, hm, hchecked⟩, -⟩ := hcalls
    obtain ⟨htied, -, hpos, -⟩ := h.tied
    have hplan : s.plan = planIn (acceptedIn log) := h.keeps.plan
    -- the attempt has a positive number, and that many requests and one more were sent
    obtain ⟨n, hn⟩ := Nat.exists_eq_add_of_lt hpos
    rw [Nat.zero_add] at hn
    rw [Asked, hcounts.requests, hn]
    refine ⟨by rw [← htied.attempt, hn], ?_⟩
    rw [← htied.mode, ← hcounts.analysis, ← hplan, Quest.request, SessionState.attemptRequest]
    cases s.mode with
    | none => rfl
    | some mode => exact ⟨s.retryBatch, toRepair_of_checked h hchecked, rfl⟩

/-- What a session has validated is due. -/
lemma due_of_history {left : ℕ} {lastError : String} {a : Artifact} {checked todo : List Artifact}
    (h : History settings id source (.checking left lastError s checked (a :: todo)) log)
    (hdue : s.IsDue a) : Due log a.code := by
  obtain ⟨hcounts, hchecking⟩ := h.calls
  have hattempt : s.attempt = attemptIn (acceptedIn log) := h.tied.1.attempt
  refine ⟨?_, hchecking.reply, ?_, _, produced_of_checking h hchecking, ?_⟩
  · rw [hcounts.requests, hattempt]
  · rw [← hattempt]
    exact hchecking.last
  · rw [← hattempt, hchecking.codes, List.filter_append, List.map_append,
      List.filter_cons_of_pos (by simpa using hdue.1), List.map_cons]
    exact ⟨_, by rw [List.append_assoc]; rfl⟩

/-! Looking for the reader changes nothing of what is due. -/

lemma ToRepair.looked {batch : List Artifact} (h : ToRepair log batch) (gone : Bool) :
    ToRepair (.looked gone :: log) batch := by
  obtain ⟨hlines, hunaccepted, hsourced, m, hlater, hattempt, hrefused⟩ := h
  refine ⟨?_, ?_, fun a ha => (hsourced a ha).mono (List.suffix_cons _ _), m, fun n hn => ?_,
    hattempt, ?_⟩
  · rwa [acceptedIn_looked]
  · rwa [acceptedIn_looked]
  · rw [checksIn_cons_of_none rfl, hlater n hn]
  · rwa [checksIn_cons_of_none rfl]

lemma Asked.looked {request : CompletionRequest} (h : Asked source log request) (gone : Bool) :
    Asked source (.looked gone :: log) request := by
  rw [Asked] at h ⊢
  rw [requestsIn_cons_of_none rfl, acceptedIn_looked, modeIn_cons_of_none rfl]
  split at h
  · exact h
  · exact h
  · refine ⟨h.1, ?_⟩
    have hrequest := h.2
    split at hrequest
    · exact hrequest
    · obtain ⟨batch, hbatch, hrequest⟩ := hrequest
      exact ⟨batch, hbatch.looked gone, hrequest⟩

lemma Produced.looked {produced : List Artifact} (h : Produced log produced) (gone : Bool) :
    Produced (.looked gone :: log) produced := by
  refine ⟨?_, ?_, fun a ha => (h.sourced a ha).mono (List.suffix_cons _ _)⟩
  · rw [pendingIn, blueprintIn_cons_of_none rfl, acceptedIn_looked]
    exact h.names
  · rw [acceptedIn_looked]
    exact h.attempt

lemma Due.looked {code : String} (h : Due log code) (gone : Bool) :
    Due (.looked gone :: log) code := by
  obtain ⟨hrequests, hreply, hlast, produced, hproduced, hcodes⟩ := h
  rw [Due, requestsIn_cons_of_none rfl, acceptedIn_looked, replyIn_cons_of_none rfl,
    checksIn_cons_of_none rfl]
  exact ⟨hrequests, hreply, hlast, produced, hproduced.looked gone, hcodes⟩

/-- At every point of a session the next step is scoped. -/
lemma grants_scoped :
    Point.Grants settings id source (fun log step => step.Scoped source log) where
  quiet log step hquiet := by
    cases step with
    | looked gone => trivial
    | recorded entry => trivial
    | announced a answer => trivial
    | _ => exact hquiet.elim
  writing event s next log answer h := h.calls.1
  asking quest s log answer h := (asked_of_history h).looked false
  checking left lastError s a checked todo log answer h hdue := (due_of_history h hdue).looked false

/-- No request is sent beyond those of the first two phases and of the attempts there are. -/
lemma grants_bounded :
    Point.Grants settings id source (fun log step =>
      ∀ request, step.request? = some request →
        (requestsIn log).length < 2 + settings.attempts) where
  quiet log step hquiet request hrequest := by
    cases step with
    | called request' answer => exact hquiet.elim
    | _ => cases hrequest
  writing event s next log answer h request hrequest := by cases hrequest
  checking left lastError s a checked todo log answer h hdue request hrequest := by cases hrequest
  asking quest s log answer h request hrequest := by
    rw [requestsIn_cons_of_none rfl]
    have hcalls := h.calls
    cases quest with
    | analysis =>
      rw [hcalls.1.requests]
      omega
    | plan =>
      have hone : 1 ≤ settings.attempts := Nat.le_max_left _ _
      rw [hcalls.1.requests]
      omega
    | attempt left lastError =>
      obtain ⟨-, -, -, hleft, -⟩ := h.tied
      rw [hcalls.1.requests]
      omega

end

/-! ## One call for each attempt -/

section

variable {log : List Step}

/-- If each request comes behind fewer than `n`, there are at most `n`. -/
lemma length_requestsIn_le {n : ℕ}
    (h : Stepwise (fun log step => ∀ request, step.request? = some request →
      (requestsIn log).length < n) log) : (requestsIn log).length ≤ n := by
  induction log with
  | nil => exact Nat.zero_le _
  | cons step rest ih =>
    cases hrequest : step.request? with
    | none =>
      rw [requestsIn_cons_of_none hrequest]
      exact ih h.2
    | some request =>
      rw [requestsIn, hrequest, Option.toList_some, List.length_append]
      exact h.1 request hrequest

lemma length_requestsIn_le_of_suffix {earlier : List Step} (h : earlier <:+ log) :
    (requestsIn earlier).length ≤ (requestsIn log).length := by
  obtain ⟨tail, rfl⟩ := h
  induction tail with
  | nil => exact Nat.le_refl _
  | cons step rest ih =>
    rw [List.cons_append, requestsIn, List.length_append]
    omega

/-- A request is told by the number of requests before it. -/
lemma eq_of_length_requestsIn {request request' : CompletionRequest}
    {answer answer' : Option (Except OracleFault Completion)} {earlier earlier' : List Step}
    (h : .called request answer :: earlier <:+ log)
    (h' : .called request' answer' :: earlier' <:+ log)
    (hlength : (requestsIn earlier).length = (requestsIn earlier').length) :
    Step.called request answer :: earlier = .called request' answer' :: earlier' := by
  -- one of the two logs is an end of the other; a proper end would have fewer requests
  rcases List.suffix_or_suffix_of_suffix h h' with hsuffix | hsuffix
  · rcases List.suffix_cons_iff.mp hsuffix with heq | hbefore
    · exact heq
    · have hle := length_requestsIn_le_of_suffix hbefore
      rw [requestsIn_called, List.length_append, List.length_singleton] at hle
      omega
  · rcases List.suffix_cons_iff.mp hsuffix with heq | hbefore
    · exact heq.symm
    · have hle := length_requestsIn_le_of_suffix hbefore
      rw [requestsIn_called, List.length_append, List.length_singleton] at hle
      omega

/-- The last reply belongs to the last request. -/
lemma exists_called_of_replyIn {reply : Except OracleFault Generation}
    (h : replyIn log = some reply) :
    ∃ request answer earlier, .called request answer :: earlier <:+ log ∧
      replyIn (.called request answer :: earlier) = some reply ∧
      (requestsIn log).length = (requestsIn earlier).length + 1 := by
  induction log with
  | nil => cases h
  | cons step rest ih =>
    cases hrequest : step.request? with
    | none =>
      rw [replyIn_cons_of_none hrequest] at h
      rw [requestsIn_cons_of_none hrequest]
      obtain ⟨request, answer, earlier, hsuffix, hfound⟩ := ih h
      exact ⟨request, answer, earlier, hsuffix.trans (List.suffix_cons _ _), hfound⟩
    | some request =>
      cases step with
      | called request' answer =>
        exact ⟨request', answer, rest, List.suffix_rfl, h, by simp⟩
      | _ => cases hrequest

/-- A check was made in its attempt. -/
lemma exists_validated_of_checksIn {n : ℕ} (h : checksIn n log ≠ []) :
    ∃ code answer earlier, .validated code answer :: earlier <:+ log ∧
      attemptIn (acceptedIn earlier) = n := by
  induction log with
  | nil => exact absurd rfl h
  | cons step rest ih =>
    by_cases hrest : checksIn n rest = []
    · rw [checksIn, hrest, List.nil_append] at h
      split at h
      · next hattempt =>
        cases step with
        | validated code answer => exact ⟨code, answer, rest, List.suffix_rfl, hattempt⟩
        | _ => exact absurd rfl h
      · exact absurd rfl h
    · obtain ⟨code, answer, earlier, hsuffix, hattempt⟩ := ih hrest
      exact ⟨code, answer, earlier, hsuffix.trans (List.suffix_cons _ _), hattempt⟩

end

/-! ## All calls are scoped -/

namespace Scene

variable {settings : Settings} {id : Uuid} {source : String} {σ : Scene}

/-- A reply that cannot be read has nothing checked in its attempt. -/
lemma checksIn_eq_nil_of_unread {request : CompletionRequest}
    {answer : Option (Except OracleFault Completion)} {earlier : List Step}
    (h : Reached settings id source σ) (hsuffix : .called request answer :: earlier <:+ σ.steps)
    (hpos : 0 < attemptIn (acceptedIn earlier))
    (hunread : ∀ output, replyIn (.called request answer :: earlier) ≠ some (.ok output)) :
    checksIn (attemptIn (acceptedIn earlier)) σ.steps = [] := by
  have hscoped := stepwise_of_reached h grants_scoped
  have hasked : Asked source earlier request := hscoped.of_suffix hsuffix
  by_contra hchecks
  obtain ⟨code, answer', before, hbefore, hattempt⟩ := exists_validated_of_checksIn hchecks
  obtain ⟨hrequests, ⟨output, hreply⟩, -⟩ : Due before code := hscoped.of_suffix hbefore
  obtain ⟨request', answer'', earlier', hcalled, hreply', hlength⟩ :=
    exists_called_of_replyIn hreply
  have hcalled' := (hcalled.trans (List.suffix_cons _ _)).trans hbefore
  -- both calls are that of the attempt, so the reply that was read is the one that cannot be
  have hsame : (requestsIn earlier).length = (requestsIn earlier').length := by
    rw [Asked] at hasked
    split at hasked
    · omega
    · omega
    · next n hn =>
      obtain ⟨hn', -⟩ := hasked
      omega
  rw [eq_of_length_requestsIn hsuffix hcalled' hsame] at hunread
  exact hunread output hreply'

/-- **The calls of a session are bounded and scoped.** There are at most two requests more than
attempts; every request, every check and every report is what is due where it is made; and nothing
is checked in an attempt whose call failed or whose reply cannot be read. -/
theorem calls_scoped (h : Reached settings id source σ) :
    (requestsIn σ.steps).length ≤ 2 + max 1 settings.maxAttempts ∧
      (∀ step earlier, step :: earlier <:+ σ.steps → step.Scoped source earlier) ∧
      (∀ request answer earlier, .called request answer :: earlier <:+ σ.steps →
        0 < attemptIn (acceptedIn earlier) →
        (∀ output, replyIn (.called request answer :: earlier) ≠ some (.ok output)) →
        checksIn (attemptIn (acceptedIn earlier)) σ.steps = []) :=
  ⟨length_requestsIn_le (stepwise_of_reached h grants_bounded),
    fun _ _ hsuffix => (stepwise_of_reached h grants_scoped).of_suffix hsuffix,
    fun _ _ _ hsuffix hpos hunread => checksIn_eq_nil_of_unread h hsuffix hpos hunread⟩

/-- In the run with a repair two attempts follow the analysis and the plan, and the second one has
only the token validated. -/
theorem calls_scoped_repaired :
    Run.repaired.requests.length ≤ 5 ∧
      (checksIn 1 Run.repaired.scene.steps).map (·.1) = ["vault", "faulty"] ∧
      (checksIn 2 Run.repaired.scene.steps).map (·.1) = ["token"] ∧
      ∀ code answer earlier, .validated code answer :: earlier <:+ Run.repaired.scene.steps →
        Due earlier code := by
  obtain ⟨hlength, hscoped, -⟩ := calls_scoped Run.repaired_reached
  refine ⟨?_, by decide +kernel, by decide +kernel, fun code answer earlier => hscoped _ _⟩
  rw [Run.requests_eq]
  exact hlength

end Scene

end ContractConversion
