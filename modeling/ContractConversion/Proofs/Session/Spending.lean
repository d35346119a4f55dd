import ContractConversion.Proofs.Except
import ContractConversion.Proofs.Session.History
import ContractConversion.Proofs.Usage

/-!
# What a session spends

Every reply costs something, and so does nothing else. At every point the state of a session has the
sum of what the replies in its log cost (`History.spent_usage`).
-/

namespace ContractConversion

/-- What the reply at this step cost. -/
def Step.cost : Step → Usage
  | .called _ (some answer) => answerUsage answer
  | _ => {}

/-- What the replies along a log cost. -/
def usageIn : List Step → Usage
  | [] => {}
  | step :: log => usageIn log + step.cost

section

variable {log : List Step}

lemma usageIn_cons_of_free {step : Step} (h : step.cost = {}) :
    usageIn (step :: log) = usageIn log := by
  rw [usageIn, h, Usage.add_zero]

lemma usageIn_exchange {s : SessionState} {source : String} {quest : Quest} {elapsed : ℕ}
    {answer : Except OracleFault Completion} :
    usageIn (s.exchange source quest answer elapsed log) = usageIn log + answerUsage answer := by
  rw [SessionState.exchange, usageIn_cons_of_free rfl, usageIn, usageIn_cons_of_free rfl]
  rfl

end

/-- The states at a point have spent this. -/
def Point.Spent (u : Usage) : Point → Prop
  | writing _ _ next => next.Spent u
  | asking _ s | checking _ _ s _ _ | announcing _ _ s _ | failing s _ | succeeding s => s.usage = u

namespace SessionState

variable {s s' : SessionState} {answer : Except OracleFault Completion}

/-- What an answer does to the artifacts costs nothing more. -/
lemma usage_of_applyAnswer (h : s.applyAnswer answer = .ok s') :
    s'.usage = (s.charged answer).usage := by
  obtain ⟨completion, -, h⟩ := bind_eq_ok.mp h
  rw [applyOutput] at h
  split at h
  · obtain ⟨output, -, h⟩ := bind_eq_ok.mp h
    obtain rfl := Except.ok.inj h
    rfl
  · obtain ⟨output, -, h⟩ := bind_eq_ok.mp h
    obtain ⟨artifacts, -, h⟩ := bind_eq_ok.mp h
    obtain rfl := Except.ok.inj h
    rfl

/-- An exchange costs what its answer does. -/
lemma usage_charged {source : String} {quest : Quest} {elapsed : ℕ} {log : List Step}
    (h : s.usage = usageIn log) :
    (s.charged answer).usage = usageIn (s.exchange source quest answer elapsed log) := by
  rw [usageIn_exchange, ← h]
  rfl

end SessionState

section

variable {settings : Settings} {id : Uuid} {source : String} {log : List Step}

lemma spent_attempts {u : Usage} {left : ℕ} {s : SessionState} {lastError : String}
    (h : s.usage = u) : (Point.attempts settings left s lastError).Spent u := by
  cases left <;> exact h

/-- **At every point a session has spent what the replies so far cost.** -/
theorem History.spent_usage {point : Point} (h : History settings id source point log) :
    point.Spent (usageIn log) := by
  induction h with
  | opened => rfl
  | wrote h ih =>
    rw [usageIn_cons_of_free rfl]
    exact ih
  | analysed completion elapsed h hs ih =>
    subst hs
    exact SessionState.usage_charged ih
  | notAnalysed h ih => exact SessionState.usage_charged ih
  | planned completion elapsed h hplan hs ih =>
    subst hs
    rw [Point.Spent]
    exact spent_attempts (SessionState.usage_charged ih)
  | notPlanned h hplan ih => exact SessionState.usage_charged ih
  | applied h happly ih =>
    exact (SessionState.usage_of_applyAnswer happly).trans (SessionState.usage_charged ih)
  | spent elapsed h happly ih =>
    rw [Point.Spent]
    exact spent_attempts (SessionState.usage_charged ih)
  | unmerged h happly ih => exact SessionState.usage_charged ih
  | skipped h hdue ih => exact ih
  | judged h hdue ih =>
    rw [usageIn_cons_of_free rfl, usageIn_cons_of_free rfl]
    exact ih
  | checked h hs ih =>
    subst hs
    exact ih
  | announced h ha ih =>
    rw [usageIn_cons_of_free rfl, usageIn_cons_of_free rfl]
    exact ih
  | passedOver h ha ih =>
    rw [usageIn_cons_of_free rfl]
    exact ih
  | succeeded h hvalid ih => exact ih
  | retried h hvalid ih => exact spent_attempts ih

end

end ContractConversion
