import ContractConversion.Stream.Emitter
import Mathlib.Tactic.Lemma

/-!
# What the emitter does

One lemma for each call of an emitter: what becomes of its event, and what it leaves behind.
-/

namespace ContractConversion

namespace Emitter

/-- An event that is handed to the channel is accepted, refused, or has to wait. -/
lemma put_cases {e e' : Emitter} {event : Event} {answer : Emitted}
    (h : e.put event = (e', answer)) :
    (answer = .wrote ∧ e.channel.connected = true ∧
      e' = { e with channel := { e.channel with history := e.channel.history ++ [event] } }) ∨
    (answer = .disconnected ∧ e.channel.connected = false ∧ e' = e) ∨
    (answer = .blocked ∧ e.channel.connected = true ∧ e' = e) := by
  rw [put, Channel.offer] at h
  by_cases hc : e.channel.connected = true
  · -- the reader is there, so all depends on the room in the buffer
    by_cases hfull : e.channel.capacity ≤ e.channel.waiting.length
    · simp only [hc, Bool.not_true, Bool.false_eq_true, if_false, if_pos hfull] at h
      obtain ⟨rfl, rfl⟩ := Prod.mk.inj h
      exact Or.inr (Or.inr ⟨rfl, hc, rfl⟩)
    · simp only [hc, Bool.not_true, Bool.false_eq_true, if_false, if_neg hfull] at h
      obtain ⟨rfl, rfl⟩ := Prod.mk.inj h
      exact Or.inl ⟨rfl, hc, by simp [hc]⟩
  · rw [Bool.not_eq_true] at hc
    rw [hc] at h
    obtain ⟨rfl, rfl⟩ := Prod.mk.inj h
    exact Or.inr (Or.inl ⟨rfl, hc, rfl⟩)

/-- An event that has to wait finds the buffer full. -/
lemma full_of_put_blocked {e e' : Emitter} {event : Event} (h : e.put event = (e', .blocked)) :
    e.channel.capacity ≤ e.channel.waiting.length := by
  rw [put, Channel.offer] at h
  by_cases hc : e.channel.connected = true
  · by_cases hfull : e.channel.capacity ≤ e.channel.waiting.length
    · exact hfull
    · simp [hc, hfull] at h
  · simp [hc] at h

/-- An event that finds the buffer full has to wait, unless the reader is gone. -/
lemma put_of_full {e : Emitter} (hc : e.channel.connected = true)
    (hfull : e.channel.capacity ≤ e.channel.waiting.length) (event : Event) :
    e.put event = (e, .blocked) := by
  rw [put, Channel.offer, if_neg (by simp [hc]), if_pos hfull]

/-- Nothing is accepted for a reader that is gone. -/
lemma put_of_gone (e : Emitter) (event : Event) (hc : e.channel.connected = false) :
    e.put event = (e, .disconnected) := by
  rw [put, Channel.offer, if_pos (by simp [hc])]

/-- A progress event goes to the channel as long as the stream is not claimed. -/
lemma emit_eq_put {e : Emitter} {event : Event} (hevent : event.isTerminal = false)
    (hclaimed : e.claimed = false) : e.emit event = e.put event := by
  rw [emit, hevent, hclaimed]
  rfl

/-- A terminal event is dropped, and so is every event once the stream is claimed. -/
lemma emit_eq_nothing {e : Emitter} {event : Event}
    (h : event.isTerminal = true ∨ e.claimed = true) : e.emit event = (e, .nothing) := by
  have hdropped : (event.isTerminal || e.claimed) = true := by simpa using h
  rw [emit, if_pos hdropped]

/-- Nothing is announced of an artifact that is not valid or was announced before. -/
lemma announce_eq_nothing {e : Emitter} {a : Artifact}
    (h : a.validated = false ∨ a.name ∈ e.sent) : e.announce a = (e, .nothing) := by
  rw [announce]
  cases hv : a.validated with
  | false => rfl
  | true =>
    have hsent : a.name ∈ e.sent := h.resolve_left (by simp [hv])
    simp [note, hsent]

/-- A valid artifact of a new name is noted and goes to the channel. -/
lemma announce_eq_put {e : Emitter} {a : Artifact} (hv : a.validated = true)
    (hsent : a.name ∉ e.sent) (hclaimed : e.claimed = false) :
    e.announce a = ({ e with sent := a.name :: e.sent } : Emitter).put (.artifactReady a) := by
  have hemit : ({ e with sent := a.name :: e.sent } : Emitter).emit (.artifactReady a) =
      ({ e with sent := a.name :: e.sent } : Emitter).put (.artifactReady a) :=
    emit_eq_put rfl hclaimed
  rw [announce, hv, note, if_neg hsent]
  simp only [Bool.not_true, Bool.false_eq_true, if_false, if_true, hemit]
  -- the channel never answers that there is nothing to write
  cases h : ({ e with sent := a.name :: e.sent } : Emitter).put (.artifactReady a) with
  | mk e' answer =>
    rcases put_cases h with ⟨rfl, -⟩ | ⟨rfl, -⟩ | ⟨rfl, -⟩ <;> rfl

/-- Once the stream is claimed, a valid artifact of a new name is noted and nothing else. -/
lemma announce_of_claimed {e : Emitter} {a : Artifact} (hv : a.validated = true)
    (hsent : a.name ∉ e.sent) (hclaimed : e.claimed = true) :
    e.announce a = ({ e with sent := a.name :: e.sent }, .wrote) := by
  have hemit : ({ e with sent := a.name :: e.sent } : Emitter).emit (.artifactReady a) =
      ({ e with sent := a.name :: e.sent }, .nothing) :=
    emit_eq_nothing (Or.inr hclaimed)
  rw [announce, hv, note, if_neg hsent]
  simp only [Bool.not_true, Bool.false_eq_true, if_false, if_true, hemit]

/-- A stream is claimed only once. -/
lemma close_eq_nothing {e : Emitter} (h : e.claimed = true) (event : Event) :
    e.close event = (e, .nothing) := by
  rw [close, if_pos h]

/-- The first terminal event claims the stream and goes to the channel. -/
lemma close_of_put {e e' : Emitter} {event : Event} {answer : Emitted}
    (hclaimed : e.claimed = false)
    (h : ({ e with claimed := true } : Emitter).put event = (e', answer)) :
    e.close event = (if answer = .wrote then { e' with delivered := true } else e', answer) := by
  rw [close, hclaimed, h]
  cases answer <;> rfl

/-- The terminal event is accepted, refused, or has to wait; nothing else is written from then
on. -/
lemma close_cases {e e' : Emitter} {event : Event} {answer : Emitted} (hclaimed : e.claimed = false)
    (h : e.close event = (e', answer)) :
    (answer = .wrote ∧ e'.channel.history = e.channel.history ++ [event] ∧
      e'.channel.connected = true) ∨
    (answer = .disconnected ∧ e'.channel = e.channel ∧ e.channel.connected = false) ∨
    (answer = .blocked ∧ e'.channel = e.channel ∧ e.channel.connected = true) := by
  rw [close, hclaimed] at h
  cases hp : ({ e with claimed := true } : Emitter).put event with
  | mk e₁ answer₁ =>
    rw [hp] at h
    rcases put_cases hp with ⟨rfl, hc, rfl⟩ | ⟨rfl, hc, rfl⟩ | ⟨rfl, hc, rfl⟩
    · obtain ⟨rfl, rfl⟩ := Prod.mk.inj h
      exact Or.inl ⟨rfl, rfl, hc⟩
    · obtain ⟨rfl, rfl⟩ := Prod.mk.inj h
      exact Or.inr (Or.inl ⟨rfl, rfl, hc⟩)
    · obtain ⟨rfl, rfl⟩ := Prod.mk.inj h
      exact Or.inr (Or.inr ⟨rfl, rfl, hc⟩)

/-- A terminal event for a reader that is gone leaves the channel as it is. -/
lemma channel_close_of_gone {e e' : Emitter} {event : Event} {answer : Emitted}
    (hc : e.channel.connected = false) (h : e.close event = (e', answer)) :
    e'.channel = e.channel := by
  cases hclaimed : e.claimed with
  | true =>
    rw [close_eq_nothing hclaimed] at h
    rw [← (Prod.mk.inj h).1]
  | false =>
    rw [close_of_put hclaimed (put_of_gone { e with claimed := true } event hc)] at h
    rw [← (Prod.mk.inj h).1]
    rfl

/-- The reader takes the event that waits in front, or nothing. -/
lemma receive_cases {e e' : Emitter} {event? : Option Event} (h : e.receive = (e', event?)) :
    (event? = none ∧ e' = e) ∨
    ∃ event rest, event? = some event ∧ e.channel.connected = true ∧
      e.channel.waiting = event :: rest ∧
      e' = { e with channel := { e.channel with received := e.channel.received + 1 } } := by
  rw [receive, Channel.take] at h
  by_cases hc : e.channel.connected = true
  · cases hw : e.channel.waiting with
    | nil =>
      simp only [hc, hw, Bool.not_true, Bool.false_eq_true, if_false] at h
      obtain ⟨rfl, rfl⟩ := Prod.mk.inj h
      exact Or.inl ⟨rfl, rfl⟩
    | cons first rest =>
      simp only [hc, hw, Bool.not_true, Bool.false_eq_true, if_false] at h
      obtain ⟨rfl, rfl⟩ := Prod.mk.inj h
      exact Or.inr ⟨first, rest, rfl, hc, rfl, by simp [hc]⟩
  · rw [if_pos (by simpa using hc)] at h
    obtain ⟨rfl, rfl⟩ := Prod.mk.inj h
    exact Or.inl ⟨rfl, rfl⟩

/-- Taking an event moves only the reader's place. -/
lemma receive_some {e e' : Emitter} {event : Event} (h : e.receive = (e', some event)) :
    e.channel.connected = true ∧ e.channel.waiting ≠ [] ∧
      e' = { e with channel := { e.channel with received := e.channel.received + 1 } } := by
  rcases receive_cases h with ⟨hnone, -⟩ | ⟨first, rest, -, hc, hw, he⟩
  · exact absurd hnone (by simp)
  · exact ⟨hc, by simp [hw], he⟩

end Emitter

end ContractConversion
