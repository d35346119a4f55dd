import ContractConversion.Proofs.Client.Store
import ContractConversion.Proofs.Repair.Merge
import ContractConversion.Proofs.Stream.Reading
import ContractConversion.Proofs.Usage

/-!
# What a store shows of any events

Nothing is asked here of the events that a store takes in: they may be missing, repeated or out of
order, plans may come twice, and a result may bring artifacts that nobody announced. Only the events
up to the first terminal one count (`Store.applyAll_heard`). What these say of the artifacts, of the
usage and of the plan is kept event by event (`Store.Reduces`): artifacts are collected under their
names, in the order in which the names came first, and each name has the last artifact of it
(`Store.Collects`).

`Store.view_of_events` says what the store shows in the end.
-/

namespace ContractConversion

open Repair (names lastNamed?)
open StreamReader (heard heard_cons)

namespace Event

/-- The usage that the event tells. -/
def usage? : Event → Option Usage
  | phase1Complete _ usage | phase2Complete _ _ usage => some usage
  | _ => none

/-- The result that the event brings. -/
def result? : Event → Option ConversionResult
  | done result => some result
  | _ => none

end Event

/-- The sum of the usages that the events of the first two phases tell. -/
def spentIn (events : List Event) : Usage :=
  (events.filterMap Event.usage?).foldl (· + ·) {}

/-- The result that the events end with, if they end with one. -/
def resultIn? (events : List Event) : Option ConversionResult :=
  events.getLast?.bind Event.result?

/-- All artifacts that the events bring: those that are announced, and then those of the result. -/
def broughtIn (events : List Event) : List Artifact :=
  announcedIn events ++ ((resultIn? events).map (·.artifacts)).getD []

lemma spentIn_concat (events : List Event) (event : Event) :
    spentIn (events ++ [event]) = event.usage?.elim (spentIn events) (spentIn events + ·) := by
  unfold spentIn
  rw [List.filterMap_append, List.foldl_append]
  cases h : event.usage? with
  | none => simp [h]
  | some usage => simp [h]

lemma resultIn?_concat (events : List Event) (event : Event) :
    resultIn? (events ++ [event]) = event.result? := by
  rw [resultIn?, List.getLast?_concat]
  rfl

namespace Store

/-! ## Behind the first terminal event -/

/-- A finished store takes in nothing. -/
lemma applyAll_of_finished {s : Store} (h : s.isFinished = true) (events : List Event) :
    s.applyAll events = s := by
  induction events with
  | nil => rfl
  | cons event events ih =>
    show (s.apply event).applyAll events = s
    have hsame : s.apply event = s := if_pos h
    rw [hsame, ih]

/-- A terminal event finishes a store, if it is not finished before. -/
lemma isFinished_apply {s : Store} {event : Event} (h : event.isTerminal = true) :
    (s.apply event).isFinished = true := by
  cases hs : s.isFinished with
  | true =>
    have hsame : s.apply event = s := if_pos hs
    rw [hsame, hs]
  | false =>
    rw [apply_of_unfinished hs]
    cases event with
    | done result => rfl
    | error message phase detail => rfl
    | _ => exact absurd h (by simp [Event.isTerminal])

/-- **Only the events up to the first terminal one count.** -/
theorem applyAll_heard (s : Store) (events : List Event) :
    s.applyAll (heard events) = s.applyAll events := by
  induction events generalizing s with
  | nil => rfl
  | cons event events ih =>
    rw [heard_cons]
    cases hterminal : event.isTerminal with
    | true =>
      show s.apply event = (s.apply event).applyAll events
      rw [applyAll_of_finished (isFinished_apply hterminal)]
    | false =>
      show (s.apply event).applyAll (heard events) = (s.apply event).applyAll events
      exact ih (s.apply event)

/-! ## Collecting artifacts -/

section Collecting

variable {a b : Artifact} {contracts artifacts : List Artifact}

/-- A name that is there keeps its first place, and a new one goes to the end. -/
lemma eraseDups_concat (ns : List String) (n : String) :
    (ns ++ [n]).eraseDups = if n ∈ ns then ns.eraseDups else ns.eraseDups ++ [n] := by
  rw [List.eraseDups_append]
  by_cases h : n ∈ ns
  · simp [List.removeAll, h]
  · simp [List.removeAll, h, List.eraseDups_cons]

lemma names_upsert (a : Artifact) (contracts : List Artifact) :
    names (upsert a contracts) =
      if a.name ∈ names contracts then names contracts else names contracts ++ [a.name] := by
  induction contracts with
  | nil => rfl
  | cons b rest ih =>
    rw [upsert]
    by_cases hb : b.name = a.name
    · rw [if_pos hb, if_pos (by simp [hb]), Repair.names_cons, Repair.names_cons, hb]
    · have hne : a.name ≠ b.name := Ne.symm hb
      rw [if_neg hb, Repair.names_cons, Repair.names_cons, ih]
      by_cases hmem : a.name ∈ names rest
      · rw [if_pos hmem, if_pos (List.mem_cons_of_mem _ hmem)]
      · rw [if_neg hmem, if_neg (by simp [hne, hmem])]
        rfl

/-- What is in place after an artifact was put in: this artifact, and those of other names. -/
lemma mem_of_mem_upsert (hnodup : (names contracts).Nodup) (h : b ∈ upsert a contracts) :
    b = a ∨ (b ∈ contracts ∧ b.name ≠ a.name) := by
  induction contracts with
  | nil => exact Or.inl (List.mem_singleton.mp h)
  | cons c rest ih =>
    rw [Repair.names_cons, List.nodup_cons] at hnodup
    rw [upsert] at h
    split at h
    · next hc =>
      rcases List.mem_cons.mp h with h | h
      · exact Or.inl h
      · -- the name of the artifact was that of the head, so nothing behind it has it
        refine Or.inr ⟨List.mem_cons_of_mem _ h, fun hb => hnodup.1 ?_⟩
        rw [hc, ← hb]
        exact List.mem_map_of_mem h
    · next hc =>
      rcases List.mem_cons.mp h with rfl | h
      · exact Or.inr ⟨List.mem_cons_self, hc⟩
      · exact (ih hnodup.2 h).imp_right fun hb => ⟨List.mem_cons_of_mem _ hb.1, hb.2⟩

lemma lastNamed?_concat (artifacts : List Artifact) (a : Artifact) (name : String) :
    lastNamed? (artifacts ++ [a]) name =
      if a.name = name then some a else lastNamed? artifacts name := by
  unfold lastNamed?
  rw [List.reverse_append]
  by_cases h : a.name = name <;> simp [h]

/-- The contracts are the artifacts collected under their names: the names stand in the order in
which they came first, and each has the last artifact of it. -/
structure Collects (contracts artifacts : List Artifact) : Prop where
  names_eq : names contracts = (names artifacts).eraseDups
  nodup : (names contracts).Nodup
  last : ∀ a ∈ contracts, lastNamed? artifacts a.name = some a

lemma collects_nil : Collects [] [] :=
  ⟨rfl, List.nodup_nil, fun _ ha => absurd ha List.not_mem_nil⟩

/-- One more artifact is collected. -/
lemma Collects.upsert (h : Collects contracts artifacts) (a : Artifact) :
    Collects (upsert a contracts) (artifacts ++ [a]) := by
  obtain ⟨hnames, hnodup, hlast⟩ := h
  have hmem : a.name ∈ names contracts ↔ a.name ∈ names artifacts := by
    rw [hnames, List.mem_eraseDups]
  have happend : names (artifacts ++ [a]) = names artifacts ++ [a.name] := List.map_append
  refine ⟨?_, ?_, ?_⟩
  · rw [names_upsert, happend, eraseDups_concat, ← hnames]
    simp only [hmem]
  · rw [names_upsert]
    split
    · exact hnodup
    · next hnew =>
      rw [List.nodup_append']
      exact ⟨hnodup, List.nodup_singleton _, by simpa using hnew⟩
  · intro b hb
    rw [lastNamed?_concat]
    rcases mem_of_mem_upsert hnodup hb with rfl | ⟨hb, hne⟩
    · rw [if_pos rfl]
    · rw [if_neg (Ne.symm hne), hlast b hb]

lemma Collects.foldl (h : Collects contracts artifacts) (more : List Artifact) :
    Collects (more.foldl (fun contracts a => Store.upsert a contracts) contracts)
      (artifacts ++ more) := by
  induction more generalizing contracts artifacts with
  | nil => rwa [List.append_nil]
  | cons a rest ih =>
    have hrest := ih (h.upsert a)
    rwa [List.append_assoc] at hrest

end Collecting

/-! ## Event by event -/

/-- The store is not finished and has of the events what they say of artifacts, usage and plan. -/
structure Reduces (s : Store) (events : List Event) : Prop where
  unfinished : s.isFinished = false
  contracts : Collects s.contracts (announcedIn events)
  usage : s.usage = spentIn events
  planned : s.planned = (planIn events).contracts

lemma reduces_forEpoch (epoch : ℕ) : (forEpoch epoch).Reduces [] :=
  ⟨rfl, collects_nil, rfl, rfl⟩

/-- One event more, which is not terminal. -/
lemma Reduces.apply {s : Store} {events : List Event} {event : Event} (h : s.Reduces events)
    (hevent : event.isTerminal = false) : (s.apply event).Reduces (events ++ [event]) := by
  obtain ⟨hunfinished, hcontracts, husage, hplanned⟩ := h
  rw [apply_of_unfinished hunfinished]
  constructor
  · cases event with
    | done result => exact absurd hevent (by simp [Event.isTerminal])
    | error message phase detail => exact absurd hevent (by simp [Event.isTerminal])
    | phase1Complete | phase2Complete | validation | artifactReady => exact hunfinished
    | _ => rfl
  · rw [announcedIn_concat]
    cases event with
    | artifactReady a => exact hcontracts.upsert a
    | done result => exact absurd hevent (by simp [Event.isTerminal])
    | _ =>
      show Collects s.contracts (announcedIn events ++ [])
      rw [List.append_nil]
      exact hcontracts
  · rw [spentIn_concat]
    cases event with
    | phase1Complete analysis usage => exact congrArg (· + usage) husage
    | phase2Complete contracts transactions usage => exact congrArg (· + usage) husage
    | done result => exact absurd hevent (by simp [Event.isTerminal])
    | _ => exact husage
  · rw [planIn_concat]
    cases event with
    | phase2Complete contracts transactions usage => rfl
    | _ => exact hplanned

/-- **As long as no terminal event has come, a store has what the events say.** -/
theorem reduces_applyAll (epoch : ℕ) {events : List Event}
    (hevents : ∀ event ∈ events, event.isTerminal = false) :
    ((forEpoch epoch).applyAll events).Reduces events := by
  induction events using List.reverseRecOn with
  | nil => exact reduces_forEpoch epoch
  | append_singleton events event ih =>
    rw [applyAll_concat]
    have hbefore := ih fun e he => hevents e (List.mem_append_left _ he)
    exact hbefore.apply (hevents event (List.mem_append_right _ List.mem_cons_self))

/-! ## With the terminal event -/

/-- The store has what the events say, the terminal one included if there is one. -/
structure Views (s : Store) (told : List Event) : Prop where
  contracts : Collects s.contracts (broughtIn told)
  usage : s.usage = ((resultIn? told).map (·.usage)).getD (spentIn told)
  complete_iff : s.status = .complete ↔ (resultIn? told).isSome
  planned : s.planned = (planIn told).contracts

/-- Events that end with a result bring its artifacts last. -/
lemma broughtIn_done (events : List Event) (result : ConversionResult) :
    broughtIn (events ++ [.done result]) = announcedIn events ++ result.artifacts := by
  rw [broughtIn, resultIn?_concat, announcedIn_concat]
  show announcedIn events ++ [] ++ result.artifacts = announcedIn events ++ result.artifacts
  rw [List.append_nil]

/-- Events that end with anything else bring what they announce. -/
lemma broughtIn_of_no_result {events : List Event} (h : resultIn? events = none) :
    broughtIn events = announcedIn events := by
  rw [broughtIn, h]
  exact List.append_nil _

variable {s : Store} {events : List Event}

/-- A store without a terminal event. -/
lemma Reduces.views (h : s.Reduces events)
    (hevents : ∀ event ∈ events, event.isTerminal = false) : s.Views events := by
  have hnone : resultIn? events = none := by
    rw [resultIn?, Option.bind_eq_none_iff]
    intro event hlast
    have hplain := hevents event (List.mem_of_getLast? hlast)
    cases event with
    | done result => exact absurd hplain (by simp [Event.isTerminal])
    | _ => rfl
  refine ⟨?_, ?_, ?_, h.planned⟩
  · rw [broughtIn_of_no_result hnone]
    exact h.contracts
  · rw [hnone]
    exact h.usage
  · have hstatus : s.status ≠ .complete := by
      intro hcomplete
      have hunfinished := h.unfinished
      rw [isFinished, hcomplete] at hunfinished
      exact absurd hunfinished (by decide)
    simp [hnone, hstatus]

/-- A store that takes in a result. -/
lemma Reduces.views_done (h : s.Reduces events) (result : ConversionResult) :
    (s.apply (.done result)).Views (events ++ [.done result]) := by
  have hresult : resultIn? (events ++ [.done result]) = some result := resultIn?_concat _ _
  rw [apply_of_unfinished h.unfinished]
  refine ⟨?_, ?_, ?_, ?_⟩
  · rw [broughtIn_done]
    exact h.contracts.foldl result.artifacts
  · rw [hresult]
    rfl
  · rw [hresult]
    exact iff_of_true rfl rfl
  · rw [planIn_concat]
    exact h.planned

/-- A store that takes in an error. -/
lemma Reduces.views_error (h : s.Reduces events) (message : String) (phase : Option ℕ)
    (detail : Option String) :
    (s.apply (.error message phase detail)).Views (events ++ [.error message phase detail]) := by
  have hnone : resultIn? (events ++ [.error message phase detail]) = none := resultIn?_concat _ _
  rw [apply_of_unfinished h.unfinished]
  refine ⟨?_, ?_, ?_, ?_⟩
  · rw [broughtIn_of_no_result hnone, announcedIn_concat]
    show Collects s.contracts (announcedIn events ++ [])
    rw [List.append_nil]
    exact h.contracts
  · rw [hnone, spentIn_concat]
    exact h.usage
  · rw [hnone]
    exact iff_of_false (by simp [advance]) (by simp)
  · rw [planIn_concat]
    exact h.planned

/-- A fresh store has what the events say up to the first terminal one. -/
lemma views_heard (epoch : ℕ) (events : List Event) :
    ((forEpoch epoch).applyAll (heard events)).Views (heard events) := by
  unfold heard
  have hbefore : ∀ event ∈ events.takeWhile (fun e => !e.isTerminal), event.isTerminal = false := by
    intro event hevent
    simpa using List.mem_takeWhile_imp hevent
  generalize events.takeWhile (fun e => !e.isTerminal) = before at hbefore ⊢
  have hreduces := reduces_applyAll epoch hbefore
  cases hfind : events.find? (·.isTerminal) with
  | none =>
    show ((forEpoch epoch).applyAll (before ++ [])).Views (before ++ [])
    rw [List.append_nil]
    exact hreduces.views hbefore
  | some event =>
    have hterminal : event.isTerminal = true := List.find?_some hfind
    show ((forEpoch epoch).applyAll (before ++ [event])).Views (before ++ [event])
    rw [applyAll_concat]
    cases event with
    | done result => exact hreduces.views_done result
    | error message phase detail => exact hreduces.views_error message phase detail
    | _ => exact absurd hterminal (by simp [Event.isTerminal])

/-- An error changes nothing but the status and the error, and nothing at all behind a terminal
event. -/
lemma apply_error (s : Store) (message : String) (phase : Option ℕ) (detail : Option String) :
    { s.apply (.error message phase detail) with status := s.status, error := s.error } = s := by
  unfold apply
  split <;> rfl

/-- **What a store shows of any events.** Whatever events a fresh store takes in, it is as if only
those up to the first terminal one had come. Its contracts have distinct names, in the order in
which these came first among the announced artifacts and then those of the result, and each contract
is the last artifact of its name. The usage is that of the result if the events end with one, and
otherwise the sum of what the events of the first two phases tell: both counts are the sums of
theirs, which are exact if 64 bits have room for them. Nothing is pending once the store
is complete, which it is exactly with a result; until then those contracts of the last plan are
pending whose names no contract has. An error changes only the status and the error. -/
theorem view_of_events (epoch : ℕ) (events : List Event) :
    let told := heard events
    let s := (forEpoch epoch).applyAll events
    s = (forEpoch epoch).applyAll told ∧
      names s.contracts = (names (broughtIn told)).eraseDups ∧
      (names s.contracts).Nodup ∧
      (∀ a ∈ s.contracts, lastNamed? (broughtIn told) a.name = some a) ∧
      (∀ result, resultIn? told = some result → s.usage = result.usage) ∧
      (resultIn? told = none →
        s.usage = spentIn told ∧ s.usage.IsSum (told.filterMap Event.usage?)) ∧
      (s.status = .complete ↔ (resultIn? told).isSome) ∧
      (s.status = .complete → s.pending = []) ∧
      (s.status ≠ .complete →
        s.pending = (planIn told).contracts.filter (·.name ∉ names s.contracts)) ∧
      ∀ message phase detail,
        { s.apply (.error message phase detail) with
          status := s.status, error := s.error } = s := by
  intro told s
  have hsame : s = (forEpoch epoch).applyAll told := (applyAll_heard _ events).symm
  have hviews : s.Views told := by
    rw [hsame]
    exact views_heard epoch events
  obtain ⟨⟨hnames, hnodup, hlast⟩, husage, hcomplete, hplanned⟩ := hviews
  refine ⟨hsame, hnames, hnodup, hlast, fun result hresult => ?_, fun hnone => ?_, hcomplete,
    fun h => if_pos h, fun h => ?_, apply_error s⟩
  · rw [husage, hresult]
    rfl
  · have hspent : s.usage = spentIn told := by
      rw [husage, hnone]
      rfl
    refine ⟨hspent, ?_⟩
    rw [hspent]
    exact Usage.isSum_foldl _
  · rw [pending, if_neg h, hplanned]
    refine List.filter_congr fun p _ => ?_
    rw [Bool.eq_iff_iff]
    simp [Repair.mem_names]

end Store
end ContractConversion
