import ContractConversion.Proofs.Stream.Traffic
import Mathlib.Data.List.Induction

/-!
# What the emitter's callers are told

Every call of an emitter comes back with an answer, unless it is given up while it waits. A `Reply`
sets the answer beside what the channel accepted of this call, and `Traffic.replies` lists the calls
that come back by an act.

For announcements the two agree, with two exceptions, both shown on small runs. An announcement on a
stream that is claimed is dropped and yet answered as written. And a name is noted before its event
is handed over, so that after an announcement that was given up, refused or dropped a later one of
the name is told that there is nothing to write (`announce_misreported`).
-/

namespace ContractConversion

/-- A call that came back. -/
structure Reply where
  call : Call
  answer : Emitted
  /-- What the channel accepted of it. -/
  put : List Event

/-! ## What a call notes -/

namespace Emitter

lemma sent_put (e : Emitter) (event : Event) : (e.put event).1.sent = e.sent := rfl

lemma sent_emit (e : Emitter) (event : Event) : (e.emit event).1.sent = e.sent := by
  rw [emit]
  split <;> rfl

lemma sent_close (e : Emitter) (event : Event) : (e.close event).1.sent = e.sent := by
  rw [close]
  split
  · rfl
  · split
    · next h =>
      have hsame := sent_put { e with claimed := true } event
      rw [h] at hsame
      exact hsame
    · exact sent_put _ event

/-- The name of a valid artifact is noted. -/
lemma mem_sent_announce (e : Emitter) (a : Artifact) {n : String} :
    n ∈ (e.announce a).1.sent ↔ n ∈ e.sent ∨ (a.validated = true ∧ a.name = n) := by
  by_cases hknown : a.validated = false ∨ a.name ∈ e.sent
  · rw [announce_eq_nothing hknown]
    refine (or_iff_left_of_imp ?_).symm
    rintro ⟨hvalid, rfl⟩
    exact hknown.resolve_left (by simp [hvalid])
  · obtain ⟨hinvalid, hnew⟩ := not_or.mp hknown
    have hvalid : a.validated = true := by simpa using hinvalid
    have hsent : (e.announce a).1.sent = a.name :: e.sent := by
      by_cases hclaimed : e.claimed = true
      · rw [announce_of_claimed hvalid hnew hclaimed]
      · rw [announce_eq_put hvalid hnew (by simpa using hclaimed)]
        exact sent_put _ _
    rw [hsent, List.mem_cons, or_comm, eq_comm]
    simp [hvalid]

lemma connected_put (e : Emitter) (event : Event) :
    (e.put event).1.channel.connected = e.channel.connected := by
  cases h : e.put event with
  | mk e' answer =>
    rcases put_cases h with ⟨-, -, rfl⟩ | ⟨-, -, rfl⟩ | ⟨-, -, rfl⟩ <;> rfl

/-- The reader changes nothing but how far it has come. -/
lemma receive_eq {e e' : Emitter} {event? : Option Event} (h : e.receive = (e', event?)) :
    ∃ received, e' = { e with channel := { e.channel with received } } := by
  rcases receive_cases h with ⟨-, rfl⟩ | ⟨_, _, -, -, -, rfl⟩
  · exact ⟨e'.channel.received, rfl⟩
  · exact ⟨e.channel.received + 1, rfl⟩

end Emitter

namespace Call

/-- Nothing but the announcement of a valid artifact notes a name. -/
lemma mem_sent_make (c : Call) (e : Emitter) {n : String} :
    n ∈ (c.make e).1.sent ↔
      n ∈ e.sent ∨ ∃ a, c = announce a ∧ a.validated = true ∧ a.name = n := by
  cases c with
  | emit event =>
    rw [make, Emitter.sent_emit]
    simp
  | announce a =>
    rw [make, Emitter.mem_sent_announce]
    simp
  | close event terminal =>
    rw [make, Emitter.sent_close]
    simp

lemma connected_resume (c : Call) (e : Emitter) :
    (c.resume e).1.channel.connected = e.channel.connected := by
  have hput := Emitter.connected_put e c.event
  rw [resume]
  cases h : e.put c.event with
  | mk e' answer =>
    rw [h] at hput
    cases c <;> cases answer <;> exact hput

/-- A reader that is there refuses nothing. -/
lemma resume_ne_disconnected {c : Call} {e e' : Emitter} (hc : e.channel.connected = true) :
    c.resume e ≠ (e', .disconnected) := by
  intro h
  rw [resume] at h
  cases hput : e.put c.event with
  | mk e₁ answer =>
    rw [hput] at h
    obtain ⟨-, rfl⟩ := Prod.mk.inj h
    rcases Emitter.put_cases hput with ⟨hw, -⟩ | ⟨-, hgone, -⟩ | ⟨hb, -⟩
    · exact absurd hw (by decide)
    · exact absurd (hc.symm.trans hgone) (by decide)
    · exact absurd hb (by decide)

/-- A stream that is claimed stays claimed. -/
lemma claimed_make {c : Call} {e : Emitter} (h : e.claimed = true) :
    (c.make e).1.claimed = true := by
  have hdue : ¬ c.Due e := fun hdue => absurd (h.symm.trans hdue.unclaimed) (by decide)
  obtain ⟨sent, answer, hmake, -⟩ := make_of_not_due hdue
  rw [hmake]
  exact h

end Call

namespace Traffic

/-- What the channel has got since an earlier state of the emitter. -/
def gained (before after : Emitter) : List Event :=
  after.channel.history.drop before.channel.history.length

/-- The calls of the line that come back when it is served. -/
def served (t : Traffic) : List Call → List Reply
  | [] => []
  | c :: line =>
    match c.resume t.emitter with
    | (_, .blocked) => []
    | (e, answer) => ⟨c, answer, gained t.emitter e⟩ :: (t.credit c e).served line

/-- The calls that come back by an act. -/
def replies (t : Traffic) : Act → List Reply
  | .call c =>
    match c.make t.emitter with
    | (_, .blocked) => []
    | (e, answer) => [⟨c, answer, gained t.emitter e⟩]
  | .abandon _ => []
  | .receive =>
    let (e, event?) := t.emitter.receive
    ({ t with emitter := e, got := t.got ++ event?.toList } : Traffic).served t.waiting
  | .disconnect => ({ t with emitter := t.emitter.disconnect } : Traffic).served t.waiting

section Gained

variable {e e' : Emitter} {event : Event}

lemma gained_of_kept (h : e'.channel.history = e.channel.history) : gained e e' = [] := by
  rw [gained, h, List.drop_length]

lemma gained_of_grown (h : e'.channel.history = e.channel.history ++ [event]) :
    gained e e' = [event] := by
  rw [gained, h, List.drop_left]

end Gained

variable {t : Traffic} {c : Call} {line : List Call} {r : Reply}

/-! ## Calls that wait in line -/

/-- A call that comes back from the line has its event accepted, or the reader is gone. -/
lemma answer_of_served (h : r ∈ t.served line) :
    (r.answer = .wrote ∧ r.put = [r.call.event]) ∨ (r.answer = .disconnected ∧ r.put = []) := by
  induction line generalizing t with
  | nil => exact absurd h (by simp [served])
  | cons c line ih =>
    cases hresume : c.resume t.emitter with
    | mk e answer =>
      rw [served, hresume] at h
      rcases Call.resume_cases hresume with ⟨rfl, hgrown, -⟩ | ⟨rfl, rfl⟩ | ⟨rfl, -⟩
      · rcases List.mem_cons.mp h with rfl | h
        · exact Or.inl ⟨rfl, gained_of_grown hgrown⟩
        · exact ih h
      · rcases List.mem_cons.mp h with rfl | h
        · exact Or.inr ⟨rfl, gained_of_kept rfl⟩
        · exact ih h
      · exact absurd h (by simp)

/-- What the channel gets while the line is served, it gets by the calls that come back. -/
lemma history_serve (t : Traffic) (line : List Call) :
    (t.serve line).emitter.channel.history =
      t.emitter.channel.history ++ (t.served line).flatMap Reply.put := by
  induction line generalizing t with
  | nil => simp [serve, served]
  | cons c line ih =>
    cases hresume : c.resume t.emitter with
    | mk e answer =>
      rw [serve, served, hresume]
      rcases Call.resume_cases hresume with ⟨rfl, hgrown, -⟩ | ⟨rfl, rfl⟩ | ⟨rfl, -⟩
      · dsimp only
        rw [ih, List.flatMap_cons, gained_of_grown hgrown, credit_of_grown hgrown, hgrown,
          List.append_assoc]
      · dsimp only
        rw [ih, List.flatMap_cons, gained_of_kept rfl, credit_of_kept rfl, List.nil_append]
      · simp

/-- Serving the line notes no name and claims nothing. -/
lemma noted_serve (t : Traffic) (line : List Call) :
    (t.serve line).emitter.sent = t.emitter.sent ∧
      (t.serve line).emitter.claimed = t.emitter.claimed := by
  induction line generalizing t with
  | nil => exact ⟨rfl, rfl⟩
  | cons c line ih =>
    cases hresume : c.resume t.emitter with
    | mk e answer =>
      rw [serve, hresume]
      rcases Call.resume_cases hresume with
        ⟨rfl, -, -, hsent, hclaimed, -⟩ | ⟨rfl, rfl⟩ | ⟨rfl, -⟩
      · obtain ⟨hs, hc⟩ := ih (t.credit c e)
        exact ⟨hs.trans hsent, hc.trans hclaimed⟩
      · exact ih (t.credit c t.emitter)
      · exact ⟨rfl, rfl⟩

/-! ## Calls that come back at once -/

lemma exists_of_mem_replies_call (h : r ∈ t.replies (.call c)) :
    ∃ e answer, c.make t.emitter = (e, answer) ∧ r = ⟨c, answer, gained t.emitter e⟩ := by
  cases hmake : c.make t.emitter with
  | mk e answer =>
    rw [replies, hmake] at h
    cases answer with
    | blocked => exact absurd h (by simp)
    | _ => exact ⟨e, _, rfl, List.mem_singleton.mp h⟩

/-- A call adds its own event to the stream or leaves the stream as it is. -/
lemma history_make {e e' : Emitter} {answer : Emitted} (h : c.make e = (e', answer)) :
    e'.channel.history = e.channel.history ∨
      (answer = .wrote ∧ e'.channel.history = e.channel.history ++ [c.event]) := by
  by_cases hdue : c.Due e
  · rw [Call.make_of_due hdue] at h
    have hchannel := congrArg Channel.history (c.channel_enter e)
    rcases Call.resume_cases h with ⟨rfl, hgrown, -⟩ | ⟨-, rfl⟩ | ⟨-, rfl, -⟩
    · exact Or.inr ⟨rfl, hchannel ▸ hgrown⟩
    · exact Or.inl hchannel
    · exact Or.inl hchannel
  · obtain ⟨sent, answer', hmake, -⟩ := Call.make_of_not_due hdue
    obtain ⟨rfl, -⟩ := Prod.mk.inj (h.symm.trans hmake)
    exact Or.inl rfl

/-! ## One act -/

lemma emitter_act_call (t : Traffic) (c : Call) :
    (t.act (.call c)).emitter = (c.make t.emitter).1 := by
  rw [act]
  cases c.make t.emitter with
  | mk e answer => cases answer <;> rfl

/-- **What the channel gets by an act, it gets by the calls that come back.** -/
lemma history_act (t : Traffic) (a : Act) :
    (t.act a).emitter.channel.history =
      t.emitter.channel.history ++ (t.replies a).flatMap Reply.put := by
  cases a with
  | call c =>
    cases hmake : c.make t.emitter with
    | mk e answer =>
      rw [emitter_act_call, replies, hmake]
      rcases history_make hmake with hkept | ⟨rfl, hgrown⟩
      · cases answer with
        | blocked => simpa using hkept
        | _ => simpa [gained_of_kept hkept] using hkept
      · simpa [gained_of_grown hgrown] using hgrown
  | abandon place => simp [act, replies]
  | receive =>
    cases hreceive : t.emitter.receive with
    | mk e event? =>
      obtain ⟨received, rfl⟩ := Emitter.receive_eq hreceive
      rw [act, replies, hreceive]
      exact history_serve _ _
  | disconnect => exact history_serve _ _

/-- An act notes the name of the valid artifact that it announces, and no other one. -/
lemma mem_sent_act (t : Traffic) (act : Act) {n : String} :
    n ∈ (t.act act).emitter.sent ↔
      n ∈ t.emitter.sent ∨ ∃ a, act = .call (.announce a) ∧ a.validated = true ∧ a.name = n := by
  cases act with
  | call c =>
    rw [emitter_act_call, c.mem_sent_make]
    simp
  | abandon place => simp [Traffic.act]
  | receive =>
    cases hreceive : t.emitter.receive with
    | mk e event? =>
      obtain ⟨received, rfl⟩ := Emitter.receive_eq hreceive
      rw [Traffic.act, hreceive]
      dsimp only
      rw [(noted_serve _ _).1]
      simp
  | disconnect =>
    rw [Traffic.act, (noted_serve _ _).1]
    simp [Emitter.disconnect]

/-- A stream that is claimed stays claimed. -/
lemma claimed_act {t : Traffic} (act : Act) (h : t.emitter.claimed = true) :
    (t.act act).emitter.claimed = true := by
  cases act with
  | call c =>
    rw [emitter_act_call]
    exact Call.claimed_make h
  | abandon place => exact h
  | receive =>
    cases hreceive : t.emitter.receive with
    | mk e event? =>
      obtain ⟨received, rfl⟩ := Emitter.receive_eq hreceive
      rw [Traffic.act, hreceive]
      dsimp only
      rw [(noted_serve _ _).2]
      exact h
  | disconnect =>
    rw [Traffic.act, (noted_serve _ _).2]
    exact h

/-! ## Any number of acts -/

lemma after_concat (capacity : ℕ) (acts : List Act) (a : Act) :
    after capacity (acts ++ [a]) = (after capacity acts).act a := by
  rw [after, List.foldl_concat]
  rfl

/-- The names that are noted are those of the valid artifacts that were announced, whatever became
of the announcement. -/
lemma mem_sent_after (capacity : ℕ) (acts : List Act) {n : String} :
    n ∈ (after capacity acts).emitter.sent ↔
      ∃ a, .call (.announce a) ∈ acts ∧ a.validated = true ∧ a.name = n := by
  induction acts using List.reverseRecOn with
  | nil => simp [after, Emitter.new]
  | append_singleton acts act ih =>
    rw [after_concat, mem_sent_act, ih]
    constructor
    · rintro (⟨a, ha, hvalid, hname⟩ | ⟨a, rfl, hvalid, hname⟩)
      · exact ⟨a, List.mem_append_left _ ha, hvalid, hname⟩
      · exact ⟨a, by simp, hvalid, hname⟩
    · rintro ⟨a, ha, hvalid, hname⟩
      rcases List.mem_append.mp ha with ha | ha
      · exact Or.inl ⟨a, ha, hvalid, hname⟩
      · exact Or.inr ⟨a, (List.mem_singleton.mp ha).symm, hvalid, hname⟩

/-- Nothing announced is lost: the reader is there, and every name that is noted belongs to an
announcement whose event was accepted or still waits. -/
structure Unlost (t : Traffic) : Prop where
  connected : t.emitter.channel.connected = true
  kept : ∀ n ∈ t.emitter.sent, ∃ a, .announce a ∈ t.accepted ++ t.waiting ∧ a.name = n

/-- For a reader that is there, a call of the line is accepted or stays in the line. -/
lemma line_serve (t : Traffic) (line : List Call) (hc : t.emitter.channel.connected = true) :
    (t.serve line).accepted ++ (t.serve line).waiting = t.accepted ++ line ∧
      (t.serve line).emitter.channel.connected = true := by
  induction line generalizing t with
  | nil => exact ⟨rfl, hc⟩
  | cons c line ih =>
    cases hresume : c.resume t.emitter with
    | mk e answer =>
      have hconnected := c.connected_resume t.emitter
      rw [hresume, hc] at hconnected
      rw [serve, hresume]
      rcases Call.resume_cases hresume with ⟨rfl, hgrown, -⟩ | ⟨rfl, -⟩ | ⟨rfl, -⟩
      · obtain ⟨hline, hthere⟩ := ih (t.credit c e) hconnected
        refine ⟨hline.trans ?_, hthere⟩
        rw [credit_of_grown hgrown, List.append_assoc, List.singleton_append]
      · exact absurd hresume (Call.resume_ne_disconnected hc)
      · exact ⟨rfl, hc⟩

/-- A call that is due is accepted or joins the line. -/
lemma mem_act_call (hc : t.emitter.channel.connected = true) (hdue : c.Due t.emitter) {b : Call} :
    b ∈ (t.act (.call c)).accepted ++ (t.act (.call c)).waiting ↔
      b ∈ t.accepted ++ t.waiting ∨ b = c := by
  have hchannel := c.channel_enter t.emitter
  have hthere : (c.enter t.emitter).channel.connected = true := hchannel ▸ hc
  cases hresume : c.resume (c.enter t.emitter) with
  | mk e answer =>
    rw [act, Call.make_of_due hdue, hresume]
    rcases Call.resume_cases hresume with ⟨rfl, hgrown, -⟩ | ⟨rfl, -⟩ | ⟨rfl, -⟩
    · rw [hchannel] at hgrown
      dsimp only
      rw [credit_of_grown hgrown]
      simp only [List.mem_append, List.mem_singleton]
      tauto
    · exact absurd hresume (Call.resume_ne_disconnected hthere)
    · simp only [List.mem_append, List.mem_singleton]
      tauto

/-- An announcement is lost only on a stream that is claimed. -/
lemma Unlost.call (h : t.Unlost) (c : Call) (hclaimed : t.emitter.claimed = false) :
    (t.act (.call c)).Unlost := by
  by_cases hdue : c.Due t.emitter
  · have hthere := c.connected_resume (c.enter t.emitter)
    rw [c.channel_enter, h.connected, ← Call.make_of_due hdue, ← emitter_act_call] at hthere
    refine ⟨hthere, fun n hn => ?_⟩
    rcases (mem_sent_act t (.call c)).mp hn with hold | ⟨a, ha, -, hname⟩
    · obtain ⟨b, hb, hname⟩ := h.kept n hold
      exact ⟨b, (mem_act_call h.connected hdue).mpr (Or.inl hb), hname⟩
    · exact ⟨a, (mem_act_call h.connected hdue).mpr (Or.inr (Act.call.inj ha).symm), hname⟩
  · -- the stream is not claimed, so the name of a valid artifact is noted already
    have hold : ∀ n ∈ (t.act (.call c)).emitter.sent, n ∈ t.emitter.sent := by
      intro n hn
      rcases (mem_sent_act t (.call c)).mp hn with hold | ⟨a, ha, hvalid, rfl⟩
      · exact hold
      · obtain rfl := Act.call.inj ha
        by_contra hnew
        refine hdue ⟨hvalid, hclaimed, fun n hn => ?_⟩
        rwa [← Option.some.inj hn]
    obtain ⟨sent, answer, hmake, hanswer, -⟩ := Call.make_of_not_due hdue
    have hact : t.act (.call c) = { t with emitter := { t.emitter with sent } } := by
      rw [act, hmake]
      cases answer with
      | blocked => exact absurd rfl hanswer
      | _ => exact credit_of_kept rfl
    refine ⟨?_, fun n hn => ?_⟩
    · rw [hact]
      exact h.connected
    · have hkept := h.kept n (hold n hn)
      rwa [hact]

/-- The reader takes an event, and the line moves on. -/
lemma Unlost.receive (h : t.Unlost) : (t.act .receive).Unlost := by
  cases hreceive : t.emitter.receive with
  | mk e event? =>
    obtain ⟨received, rfl⟩ := Emitter.receive_eq hreceive
    rw [act, hreceive]
    dsimp only
    -- serving the line moves its calls to the accepted ones, in order
    generalize hread : ({ t with
      emitter := { t.emitter with channel := { t.emitter.channel with received } },
      got := t.got ++ event?.toList } : Traffic) = read
    have hthere : read.emitter.channel.connected = true := hread ▸ h.connected
    obtain ⟨hline, hconnected⟩ := line_serve read t.waiting hthere
    refine ⟨hconnected, fun n hn => ?_⟩
    rw [(noted_serve _ _).1, ← hread] at hn
    rw [hline, ← hread]
    exact h.kept n hn

/-- As long as no call is given up, the reader does not go away and the stream is not claimed,
nothing announced is lost. -/
lemma unlost_after (capacity : ℕ) {acts : List Act} (hkeep : ∀ place, .abandon place ∉ acts)
    (hstay : .disconnect ∉ acts) (hopen : (after capacity acts).emitter.claimed = false) :
    (after capacity acts).Unlost := by
  induction acts using List.reverseRecOn with
  | nil => exact ⟨rfl, by simp [after, Emitter.new]⟩
  | append_singleton acts act ih =>
    rw [after_concat] at hopen ⊢
    have hbefore : (after capacity acts).emitter.claimed = false := by
      by_contra hclaimed
      rw [Bool.not_eq_false] at hclaimed
      exact absurd (hopen.symm.trans (claimed_act act hclaimed)) (by decide)
    have hunlost := ih (fun place h => hkeep place (List.mem_append_left _ h))
      (fun h => hstay (List.mem_append_left _ h)) hbefore
    cases act with
    | call c => exact hunlost.call c hbefore
    | abandon place => exact absurd (by simp) (hkeep place)
    | receive => exact hunlost.receive
    | disconnect => exact absurd (by simp) hstay

/-! ## The answers to announcements -/

/-- An announcement that the emitter has no event for is told so. -/
lemma reply_of_known {a : Artifact} (h : r ∈ t.replies (.call (.announce a)))
    (hknown : a.validated = false ∨ a.name ∈ t.emitter.sent) :
    r.answer = .nothing ∧ r.put = [] := by
  obtain ⟨e, answer, hmake, rfl⟩ := exists_of_mem_replies_call h
  rw [Call.make, Emitter.announce_eq_nothing hknown] at hmake
  obtain ⟨rfl, rfl⟩ := Prod.mk.inj hmake
  exact ⟨rfl, gained_of_kept rfl⟩

/-- On a stream that is claimed, the event of a new valid artifact is dropped, and yet the answer is
that it was written. -/
lemma reply_of_claimed {a : Artifact} (h : r ∈ t.replies (.call (.announce a)))
    (hvalid : a.validated = true) (hnew : a.name ∉ t.emitter.sent)
    (hclaimed : t.emitter.claimed = true) : r.answer = .wrote ∧ r.put = [] := by
  obtain ⟨e, answer, hmake, rfl⟩ := exists_of_mem_replies_call h
  rw [Call.make, Emitter.announce_of_claimed hvalid hnew hclaimed] at hmake
  obtain ⟨rfl, rfl⟩ := Prod.mk.inj hmake
  exact ⟨rfl, gained_of_kept rfl⟩

/-- On one that is not, it is accepted, or the reader is gone. -/
lemma reply_of_new {a : Artifact} (h : r ∈ t.replies (.call (.announce a)))
    (hvalid : a.validated = true) (hnew : a.name ∉ t.emitter.sent)
    (hopen : t.emitter.claimed = false) :
    (r.answer = .wrote ∧ r.put = [.artifactReady a]) ∨ (r.answer = .disconnected ∧ r.put = []) := by
  cases hmake : (Call.announce a).make t.emitter with
  | mk e answer =>
    rw [replies, hmake] at h
    have hput := hmake
    rw [Call.make, Emitter.announce_eq_put hvalid hnew hopen] at hput
    rcases Emitter.put_cases hput with ⟨rfl, -, rfl⟩ | ⟨rfl, -, rfl⟩ | ⟨rfl, -⟩
    · obtain rfl := List.mem_singleton.mp h
      exact Or.inl ⟨rfl, gained_of_grown rfl⟩
    · obtain rfl := List.mem_singleton.mp h
      exact Or.inr ⟨rfl, gained_of_kept rfl⟩
    · exact absurd h (by simp)

/-- An announcement that comes back from the line is accepted, or the reader is gone. -/
lemma reply_of_waiting {a : Artifact} {act : Act} (h : r ∈ t.replies act)
    (ha : r.call = .announce a) (hact : ∀ c, act ≠ .call c) :
    (r.answer = .wrote ∧ r.put = [.artifactReady a]) ∨ (r.answer = .disconnected ∧ r.put = []) := by
  have hserved : ∃ (t' : Traffic) (line : List Call), r ∈ t'.served line := by
    cases act with
    | call c => exact absurd rfl (hact c)
    | abandon place => exact absurd h (by simp [replies])
    | receive => exact ⟨_, _, h⟩
    | disconnect => exact ⟨_, _, h⟩
  obtain ⟨t', line, hline⟩ := hserved
  have hanswer := answer_of_served hline
  rwa [ha] at hanswer

/-- How the answer to an announcement, and what the channel accepted of it, follow from what the
call found. -/
lemma answer_iff {a : Artifact} {act : Act} (h : r ∈ t.replies act) (ha : r.call = .announce a) :
    (r.put = [.artifactReady a] ↔
      r.answer = .wrote ∧ ¬ (act = .call r.call ∧ t.emitter.claimed = true)) ∧
    (r.answer = .nothing ↔
      act = .call r.call ∧ (a.validated = false ∨ a.name ∈ t.emitter.sent)) := by
  by_cases hcall : ∃ c, act = .call c
  · obtain ⟨c, rfl⟩ := hcall
    have hc : r.call = c := by
      obtain ⟨_, _, -, rfl⟩ := exists_of_mem_replies_call h
      rfl
    obtain rfl := hc.symm.trans ha
    by_cases hknown : a.validated = false ∨ a.name ∈ t.emitter.sent
    · obtain ⟨hanswer, hput⟩ := reply_of_known h hknown
      simp [hanswer, hput, ha, hknown]
    · obtain ⟨hinvalid, hnew⟩ := not_or.mp hknown
      have hvalid : a.validated = true := by simpa using hinvalid
      cases hclaimed : t.emitter.claimed with
      | true =>
        obtain ⟨hanswer, hput⟩ := reply_of_claimed h hvalid hnew hclaimed
        simp [hanswer, hput, ha, hvalid, hnew]
      | false =>
        rcases reply_of_new h hvalid hnew hclaimed with ⟨hanswer, hput⟩ | ⟨hanswer, hput⟩ <;>
          simp [hanswer, hput, hvalid, hnew]
  · have hline : ∀ c, act ≠ .call c := fun c hact => hcall ⟨c, hact⟩
    rcases reply_of_waiting h ha hline with ⟨hanswer, hput⟩ | ⟨hanswer, hput⟩ <;>
      simp [hanswer, hput, hline]

/-- **What an announcement is told.** For any buffer, any acts and any act after them: everything
the channel gets by the act, it gets by the calls that come back, and the names that are noted are
those of the valid artifacts announced so far. An announcement that comes back put its event into
the channel exactly if it is told that it was written and did not find the stream claimed. It is
told that there is nothing to write exactly if it is not valid or its name was announced before. As
long as no call is given up, the reader is there and the stream is not claimed, the event of that
earlier announcement was accepted or still waits. -/
theorem reply_of_announce (capacity : ℕ) (acts : List Act) (act : Act) :
    let t := after capacity acts
    let announced := fun name =>
      ∃ a, .call (.announce a) ∈ acts ∧ a.validated = true ∧ a.name = name
    (t.act act).emitter.channel.history =
      t.emitter.channel.history ++ (t.replies act).flatMap Reply.put ∧
    (∀ name, name ∈ t.emitter.sent ↔ announced name) ∧
    ∀ r ∈ t.replies act, ∀ a, r.call = .announce a →
      (r.put = [.artifactReady a] ↔
        r.answer = .wrote ∧ ¬ (act = .call r.call ∧ t.emitter.claimed = true)) ∧
      (r.answer = .nothing ↔ act = .call r.call ∧ (a.validated = false ∨ announced a.name)) ∧
      ((∀ place, .abandon place ∉ acts) → .disconnect ∉ acts → t.emitter.claimed = false →
        r.answer = .nothing →
        a.validated = false ∨ ∃ b, .announce b ∈ t.accepted ++ t.waiting ∧ b.name = a.name) := by
  intro t announced
  have hsent : ∀ name, name ∈ t.emitter.sent ↔ announced name :=
    fun name => mem_sent_after capacity acts
  refine ⟨history_act t act, hsent, fun r hr a ha => ?_⟩
  obtain ⟨hput, hnothing⟩ := answer_iff hr ha
  refine ⟨hput, hnothing.trans (and_congr_right' (or_congr_right (hsent a.name))), ?_⟩
  intro hkeep hstay hopen hanswer
  exact (hnothing.mp hanswer).2.imp_right ((unlost_after capacity hkeep hstay hopen).kept a.name)

/-- An artifact that is announced twice: the second time there is nothing to write, for its event
was accepted the first time. -/
theorem reply_of_announce_again :
    let a : Artifact := { name := "Token", code := "contract", validated := true }
    let acts : List Act := [.call (.announce a), .receive]
    let r : Reply := ⟨.announce a, .nothing, []⟩
    r ∈ (after 1 acts).replies (.call (.announce a)) ∧
      (r.put = [.artifactReady a] ↔ r.answer = .wrote ∧
        ¬ (Act.call (.announce a) = .call r.call ∧ (after 1 acts).emitter.claimed = true)) ∧
      ∃ b, .announce b ∈ (after 1 acts).accepted ++ (after 1 acts).waiting ∧ b.name = "Token" := by
  intro a acts r
  have hr : r ∈ (after 1 acts).replies (.call (.announce a)) := List.mem_singleton.mpr rfl
  obtain ⟨hput, -, hkept⟩ := (reply_of_announce 1 acts (.call (.announce a))).2.2 r hr a rfl
  refine ⟨hr, hput, (hkept ?_ ?_ rfl rfl).resolve_left (by decide)⟩
  · simp [acts]
  · simp [acts]

/-- **Announcements are misreported.** On a stream that is claimed, a valid artifact is told that it
was written, and the channel got nothing. And after an announcement that found the buffer full and
was given up, the same artifact is told that there is nothing to write, although it is valid, the
reader is there, the buffer has room, and the channel never got an event for it. -/
theorem announce_misreported :
    let a : Artifact := { name := "Token", code := "contract", validated := true }
    let closed : List Act := [.call (.close (.error "boom" none none) rfl)]
    let resumed : List Act :=
      [.call (.emit .phase2Start), .call (.announce a), .abandon 0, .receive]
    (after 8 closed).replies (.call (.announce a)) = [⟨.announce a, .wrote, []⟩] ∧
    (after 1 resumed).replies (.call (.announce a)) = [⟨.announce a, .nothing, []⟩] ∧
      (after 1 resumed).emitter.channel.connected = true ∧
      (after 1 resumed).emitter.channel.waiting = [] ∧
      (after 1 resumed).emitter.channel.history = [.phase2Start] :=
  ⟨rfl, rfl, rfl, rfl, rfl⟩

end Traffic

end ContractConversion
