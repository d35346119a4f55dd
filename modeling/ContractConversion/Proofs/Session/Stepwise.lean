import ContractConversion.Proofs.Session.Events

/-!
# The steps of a session

`Stepwise P` says that every step of a log satisfies `P` together with the log before it, as `Along`
does for events. The steps at which a session calls the outside or writes an event are those of its
points, so `P` needs to be shown at the points only (`Scene.stepwise_of_reached`).
-/

namespace ContractConversion

/-- Every step of the log satisfies `P` with the log before it. -/
def Stepwise (P : List Step → Step → Prop) : List Step → Prop
  | [] => True
  | step :: log => P log step ∧ Stepwise P log

/-- A step that neither calls the outside nor writes an event. -/
def Step.IsQuiet : Step → Prop
  | .looked _ | .recorded _ | .announced _ _ => True
  | _ => False

namespace Stepwise

variable {P : List Step → Step → Prop} {log : List Step}

lemma of_append {tail : List Step} (h : Stepwise P (tail ++ log)) : Stepwise P log := by
  induction tail with
  | nil => exact h
  | cons step rest ih => exact ih h.2

/-- A step of the log satisfies `P`. -/
lemma of_suffix {step : Step} {earlier : List Step} (h : Stepwise P log)
    (hsuffix : step :: earlier <:+ log) : P earlier step := by
  obtain ⟨tail, rfl⟩ := hsuffix
  exact h.of_append.1

end Stepwise

/-- What has to be shown at the points of a session for a property of its steps. -/
structure Point.Grants (settings : Settings) (id : Uuid) (source : String)
    (P : List Step → Step → Prop) : Prop where
  quiet : ∀ log step, step.IsQuiet → P log step
  writing : ∀ event s next log answer,
    History settings id source (.writing event s next) log → P log (.emitted event answer)
  asking : ∀ quest s log answer, History settings id source (.asking quest s) log →
    P (.looked false :: log) (.called (quest.request source s) answer)
  checking : ∀ left lastError s a checked todo log answer,
    History settings id source (.checking left lastError s checked (a :: todo)) log → s.IsDue a →
    P (.looked false :: log) (.validated a.code answer)

section

variable {settings : Settings} {id : Uuid} {source : String} {P : List Step → Step → Prop}
  {log : List Step}

/-- The steps of an exchange. -/
lemma Point.Grants.exchange {quest : Quest} {s : SessionState} {elapsed : ℕ}
    {answer : Except OracleFault Completion} (hP : Grants settings id source P)
    (h : History settings id source (.asking quest s) log) (ih : Stepwise P log) :
    Stepwise P (s.exchange source quest answer elapsed log) :=
  ⟨hP.quiet _ _ trivial, hP.asking _ _ _ _ h, hP.quiet _ _ trivial, ih⟩

/-- What is granted at the points holds of every step of a history. -/
theorem History.stepwise {point : Point} (h : History settings id source point log)
    (hP : Point.Grants settings id source P) : Stepwise P log := by
  induction h with
  | opened => exact ⟨hP.quiet _ _ trivial, trivial⟩
  | wrote h ih => exact ⟨hP.writing _ _ _ _ _ h, ih⟩
  | analysed completion elapsed h hs ih => exact hP.exchange h ih
  | notAnalysed h ih => exact hP.exchange h ih
  | planned completion elapsed h hplan hs ih => exact hP.exchange h ih
  | notPlanned h hplan ih => exact hP.exchange h ih
  | applied h happly ih => exact hP.exchange h ih
  | spent elapsed h happly ih => exact hP.exchange h ih
  | unmerged h happly ih => exact hP.exchange h ih
  | skipped h hdue ih => exact ih
  | judged h hdue ih => exact ⟨hP.checking _ _ _ _ _ _ _ _ h hdue, hP.quiet _ _ trivial, ih⟩
  | checked h hs ih => exact ih
  | announced h ha ih => exact ⟨hP.quiet _ _ trivial, hP.quiet _ _ trivial, ih⟩
  | passedOver h ha ih => exact ⟨hP.quiet _ _ trivial, ih⟩
  | succeeded h hvalid ih => exact ih
  | retried h hvalid ih => exact ih

/-- It also holds of the steps with which a session ends. -/
theorem Halted.stepwise {halt : Halt} (h : Halted settings id source log halt)
    (hP : Point.Grants settings id source P) : Stepwise P log := by
  cases h with
  | writeCut h => exact ⟨hP.writing _ _ _ _ _ h, h.stepwise hP⟩
  | writeLost h => exact ⟨hP.quiet _ _ trivial, hP.writing _ _ _ _ _ h, h.stepwise hP⟩
  | askLost h => exact ⟨hP.quiet _ _ trivial, hP.quiet _ _ trivial, h.stepwise hP⟩
  | askCut h hhalt => exact ⟨hP.asking _ _ _ _ h, hP.quiet _ _ trivial, h.stepwise hP⟩
  | checkLost h hdue => exact ⟨hP.quiet _ _ trivial, hP.quiet _ _ trivial, h.stepwise hP⟩
  | checkCut h hdue hhalt =>
    exact ⟨hP.checking _ _ _ _ _ _ _ _ h hdue, hP.quiet _ _ trivial, h.stepwise hP⟩
  | announceCut h => exact ⟨hP.quiet _ _ trivial, h.stepwise hP⟩
  | announceLost h ha => exact ⟨hP.quiet _ _ trivial, hP.quiet _ _ trivial, h.stepwise hP⟩
  | failed h => exact ⟨hP.quiet _ _ trivial, h.stepwise hP⟩
  | completed h => exact ⟨hP.quiet _ _ trivial, h.stepwise hP⟩

/-- **What is granted at the points of a session holds of every step of its scenes.** -/
theorem Scene.stepwise_of_reached {σ : Scene} (h : Reached settings id source σ)
    (hP : Point.Grants settings id source P) : Stepwise P σ.steps := by
  obtain ⟨tail, halt, -, hhalted, -⟩ := halted_of_reached h
  exact (hhalted.stepwise hP).of_append

end

end ContractConversion
