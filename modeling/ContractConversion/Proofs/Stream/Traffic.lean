import ContractConversion.Proofs.Stream.Emitter
import Mathlib.Data.List.Infix
import Mathlib.Data.List.Nodup

/-!
# The emitter in use

An emitter and the handles of its terminal event are shared. Whoever has one may call it at any
time, the reader takes events or goes away, and calls that found the buffer full stand in line for
room, the one that came first in front. A call that waits may be given up at any time.

`Traffic` is an emitter with the line of calls in front of it, and `Traffic.after` what it comes to
by a sequence of acts. However it is used, the calls whose events were accepted and those that wait
are in order (`Orderly`): only the last of them may be terminal, and no name is announced twice.
From this it follows what the stream holds (`Traffic.stream_of_acts`).
-/

namespace ContractConversion

/-! ## Calls -/

/-- A call of an emitter, or of a handle of its terminal event. -/
inductive Call where
  | emit (event : Event)
  | announce (a : Artifact)
  | close (event : Event) (terminal : event.isTerminal = true)

namespace Call

/-- The event that the call is about. -/
def event : Call → Event
  | emit event => event
  | announce a => .artifactReady a
  | close event _ => event

/-- The name that the call announces. -/
def announced? : Call → Option String
  | announce a => some a.name
  | _ => none

/-- Makes the call. If it is blocked, it has done what comes before the waiting. -/
def make (e : Emitter) : Call → Emitter × Emitted
  | emit event => e.emit event
  | announce a => e.announce a
  | close event _ => e.close event

/-- What the call leaves behind once the channel has answered. -/
def settle (c : Call) (e : Emitter) (answer : Emitted) : Emitter :=
  match c, answer with
  | close _ _, .wrote => { e with delivered := true }
  | _, _ => e

/-- Hands the event over: what is left to do of a call that has to wait. -/
def resume (c : Call) (e : Emitter) : Emitter × Emitted :=
  let (e, answer) := e.put c.event
  (c.settle e answer, answer)

end Call

/-! ## An emitter with its callers and its reader -/

/-- An emitter in use. -/
structure Traffic where
  emitter : Emitter
  /-- The calls that wait for room, the one that came first in front. -/
  waiting : List Call := []
  /-- The calls whose events the channel accepted, in order. -/
  accepted : List Call := []
  /-- What the reader took, in order. -/
  got : List Event := []

namespace Traffic

/-- What may happen to an emitter. -/
inductive Act where
  | call (c : Call)
  /-- The call at this place of the line is given up. -/
  | abandon (place : ℕ)
  | receive
  | disconnect

/-- The emitter after a call; the call counts as accepted if the channel has one more event. -/
def credit (t : Traffic) (c : Call) (e : Emitter) : Traffic :=
  { t with
    emitter := e
    accepted := if e.channel.history = t.emitter.channel.history then t.accepted
      else t.accepted ++ [c] }

/-- Calls wait in line, and as long as they need not wait any more they go on. -/
def serve (t : Traffic) : List Call → Traffic
  | [] => { t with waiting := [] }
  | c :: line =>
    match c.resume t.emitter with
    | (_, .blocked) => { t with waiting := c :: line }
    | (e, _) => (t.credit c e).serve line

/-- One act. Room that becomes free goes to the calls that wait, and so does the news that the
reader is gone. -/
def act (t : Traffic) : Act → Traffic
  | .call c =>
    match c.make t.emitter with
    | (e, .blocked) => { t with emitter := e, waiting := t.waiting ++ [c] }
    | (e, _) => t.credit c e
  | .abandon place => { t with waiting := t.waiting.eraseIdx place }
  | .receive =>
    let (e, event?) := t.emitter.receive
    ({ t with emitter := e, got := t.got ++ event?.toList } : Traffic).serve t.waiting
  | .disconnect => ({ t with emitter := t.emitter.disconnect } : Traffic).serve t.waiting

/-- What a new emitter comes to. -/
def after (capacity : ℕ) (acts : List Act) : Traffic :=
  acts.foldl act { emitter := .new capacity }

end Traffic

/-! ## What a call does before it waits -/

namespace Call

variable {c : Call} {e : Emitter}

/-- The call has a right to its event: what is announced is valid, and what is emitted does not end
the stream. -/
def Proper : Call → Prop
  | emit event => event.isTerminal = false
  | announce a => a.validated = true
  | close _ _ => True

/-- What the call does before its event is handed over. -/
def enter (e : Emitter) : Call → Emitter
  | emit _ => e
  | announce a => { e with sent := a.name :: e.sent }
  | close _ _ => { e with claimed := true }

/-- The call has an event to hand over. -/
structure Due (c : Call) (e : Emitter) : Prop where
  proper : c.Proper
  unclaimed : e.claimed = false
  fresh : ∀ n, c.announced? = some n → n ∉ e.sent

lemma channel_enter (c : Call) (e : Emitter) : (c.enter e).channel = e.channel := by
  cases c <;> rfl

/-- A call that has an event enters and hands the event over. -/
lemma make_of_due (h : c.Due e) : c.make e = c.resume (c.enter e) := by
  obtain ⟨hproper, hunclaimed, hfresh⟩ := h
  cases c with
  | emit event => exact Emitter.emit_eq_put hproper hunclaimed
  | announce a => exact Emitter.announce_eq_put hproper (hfresh a.name rfl) hunclaimed
  | close event terminal =>
    cases hput : ({ e with claimed := true } : Emitter).put event with
    | mk e₁ answer =>
      have henter : (close event terminal).resume ((close event terminal).enter e) =
          ((close event terminal).settle e₁ answer, answer) :=
        congrArg (fun r : Emitter × Emitted => ((close event terminal).settle r.1 r.2, r.2)) hput
      rw [make, Emitter.close_of_put hunclaimed hput, henter]
      cases answer <;> rfl

/-- A call that has none leaves the stream as it is; it may have noted a name. -/
lemma make_of_not_due (h : ¬ c.Due e) :
    ∃ sent answer, c.make e = ({ e with sent }, answer) ∧ answer ≠ .blocked ∧ e.sent ⊆ sent := by
  have hnothing : c.make e = (e, .nothing) →
      ∃ sent answer, c.make e = ({ e with sent }, answer) ∧ answer ≠ .blocked ∧ e.sent ⊆ sent :=
    fun h => ⟨e.sent, .nothing, h, by decide, List.Subset.refl _⟩
  cases c with
  | emit event =>
    apply hnothing
    apply Emitter.emit_eq_nothing
    by_contra hboth
    obtain ⟨hplain, hunclaimed⟩ := not_or.mp hboth
    rw [Bool.not_eq_true] at hplain hunclaimed
    exact h ⟨hplain, hunclaimed, by simp [announced?]⟩
  | announce a =>
    by_cases hdropped : a.validated = false ∨ a.name ∈ e.sent
    · exact hnothing (Emitter.announce_eq_nothing hdropped)
    · obtain ⟨hv, hsent⟩ := not_or.mp hdropped
      rw [Bool.not_eq_false] at hv
      have hclaimed : e.claimed = true := by
        by_contra hunclaimed
        refine h ⟨hv, by simpa using hunclaimed, fun n hn => ?_⟩
        obtain rfl := Option.some.inj hn
        exact hsent
      exact ⟨_, _, Emitter.announce_of_claimed hv hsent hclaimed, by decide,
        List.subset_cons_self _ _⟩
  | close event terminal =>
    apply hnothing
    apply Emitter.close_eq_nothing
    by_contra hunclaimed
    exact h ⟨trivial, by simpa using hunclaimed, by simp [announced?]⟩

/-- A terminal event that was accepted counts as delivered. -/
lemma delivered_settle (hproper : c.Proper) (e : Emitter) :
    (c.settle e .wrote).delivered = (e.delivered || c.event.isTerminal) := by
  cases c with
  | emit event =>
    have hplain : event.isTerminal = false := hproper
    rw [Call.event, hplain, Bool.or_false]
    rfl
  | announce a => exact (Bool.or_false _).symm
  | close event terminal =>
    rw [Call.event, terminal, Bool.or_true]
    rfl

/-- An event that is handed over is accepted, and the call settles; or the reader is gone; or it has
to wait. -/
lemma resume_cases {e' : Emitter} {answer : Emitted} (h : c.resume e = (e', answer)) :
    (answer = .wrote ∧ e'.channel.history = e.channel.history ++ [c.event] ∧
      e'.channel.received = e.channel.received ∧ e'.sent = e.sent ∧ e'.claimed = e.claimed ∧
      (c.Proper → e'.delivered = (e.delivered || c.event.isTerminal))) ∨
    (answer = .disconnected ∧ e' = e) ∨
    (answer = .blocked ∧ e' = e ∧ e.channel.connected = true ∧
      e.channel.capacity ≤ e.channel.waiting.length) := by
  rw [resume] at h
  cases hput : e.put c.event with
  | mk e₁ answer₁ =>
    rw [hput] at h
    obtain ⟨rfl, rfl⟩ := Prod.mk.inj h
    rcases Emitter.put_cases hput with ⟨rfl, -, rfl⟩ | ⟨rfl, -, rfl⟩ | ⟨rfl, hc, rfl⟩
    · refine Or.inl ⟨rfl, ?_, ?_, ?_, ?_, fun hproper => delivered_settle hproper _⟩
      all_goals cases c <;> rfl
    · cases c <;> exact Or.inr (Or.inl ⟨rfl, rfl⟩)
    · have hfull := Emitter.full_of_put_blocked hput
      cases c <;> exact Or.inr (Or.inr ⟨rfl, rfl, hc, hfull⟩)

end Call

/-! ## Calls in order -/

/-- The calls with an event, those accepted in front of those that wait, are in order. Only the last
of them may end the stream, and then the stream is claimed; and each name that is announced is noted
and announced once. -/
structure Lined (e : Emitter) (line : List Call) : Prop where
  proper : ∀ c ∈ line, c.Proper
  last : line.Pairwise fun c _ => c.event.isTerminal = false
  claimed : e.claimed = false → ∀ c ∈ line, c.event.isTerminal = false
  fresh : (line.filterMap Call.announced?).Nodup
  noted : ∀ n ∈ line.filterMap Call.announced?, n ∈ e.sent

namespace Lined

variable {e e' : Emitter} {line line' : List Call} {c : Call}

/-- Calls may leave the line, also from its middle. -/
lemma sublist (h : Lined e line) (hsub : line'.Sublist line) : Lined e line' where
  proper c hc := h.proper c (hsub.subset hc)
  last := h.last.sublist hsub
  claimed hclaimed c hc := h.claimed hclaimed c (hsub.subset hc)
  fresh := h.fresh.sublist (hsub.filterMap _)
  noted n hn := h.noted n ((hsub.filterMap _).subset hn)

/-- The emitter may note more names, and the stream be claimed. -/
lemma mono (h : Lined e line) (hsent : e.sent ⊆ e'.sent)
    (hclaimed : e'.claimed = false → e.claimed = false) : Lined e' line where
  proper := h.proper
  last := h.last
  claimed he := h.claimed (hclaimed he)
  fresh := h.fresh
  noted n hn := hsent (h.noted n hn)

/-- A call that is due comes last. -/
lemma concat (h : Lined e line) (hc : c.Due e) : Lined (c.enter e) (line ++ [c]) := by
  have hplain : ∀ b ∈ line, b.event.isTerminal = false := h.claimed hc.unclaimed
  have hnames : (line ++ [c]).filterMap Call.announced? =
      line.filterMap Call.announced? ++ c.announced?.toList := by
    rw [List.filterMap_append, List.filterMap_cons, List.filterMap_nil]
    cases c.announced? <;> rfl
  refine ⟨?_, ?_, ?_, ?_, ?_⟩
  · intro b hb
    rcases List.mem_append.mp hb with hb | hb
    · exact h.proper b hb
    · obtain rfl := List.mem_singleton.mp hb
      exact hc.proper
  · -- nothing in front of it is terminal, for the stream was not claimed
    rw [List.pairwise_append]
    exact ⟨h.last, List.pairwise_singleton _ _, fun b hb _ _ => hplain b hb⟩
  · intro hclaimed b hb
    rcases List.mem_append.mp hb with hb | hb
    · exact hplain b hb
    · obtain rfl := List.mem_singleton.mp hb
      cases b with
      | emit event => exact hc.proper
      | announce a => rfl
      | close event terminal => exact absurd hclaimed (by simp [Call.enter])
  · -- its name was not noted, so nobody in front of it has that name
    rw [hnames, List.nodup_append]
    refine ⟨h.fresh, ?_, ?_⟩
    · cases c.announced? <;> simp
    · intro n hn m hm
      rw [Option.mem_toList] at hm
      exact fun heq => hc.fresh m hm (heq ▸ h.noted n hn)
  · intro n hn
    rw [hnames, List.mem_append, Option.mem_toList] at hn
    rcases hn with hn | hn
    · have hold := h.noted n hn
      cases c with
      | announce a => exact List.mem_cons_of_mem _ hold
      | _ => exact hold
    · cases c with
      | announce a =>
        obtain rfl := Option.some.inj hn
        exact List.mem_cons_self
      | _ => exact absurd hn (by simp [Call.announced?])

end Lined

namespace Traffic

variable {t : Traffic} {c : Call} {line : List Call}

/-- What holds of an emitter however it is used. -/
structure Orderly (t : Traffic) (line : List Call) : Prop where
  lined : Lined t.emitter (t.accepted ++ line)
  history : t.emitter.channel.history = t.accepted.map Call.event
  delivered : t.emitter.delivered = t.accepted.any (·.event.isTerminal)
  got : t.got = t.emitter.channel.delivered
  got_le : t.emitter.channel.received ≤ t.emitter.channel.history.length

/-- Who waits, waits for room. -/
def Full (t : Traffic) : Prop :=
  t.waiting ≠ [] → t.emitter.channel.connected = true ∧
    t.emitter.channel.capacity ≤ t.emitter.channel.waiting.length

lemma credit_of_kept {e : Emitter} (h : e.channel.history = t.emitter.channel.history) :
    t.credit c e = { t with emitter := e } := by
  rw [credit, if_pos h]

lemma credit_of_grown {e : Emitter} {event : Event}
    (h : e.channel.history = t.emitter.channel.history ++ [event]) :
    t.credit c e = { t with emitter := e, accepted := t.accepted ++ [c] } := by
  have hne : ¬ e.channel.history = t.emitter.channel.history := by simp [h]
  rw [credit, if_neg hne]

namespace Orderly

/-- Who leaves the line leaves the rest in order. -/
lemma sublist (h : Orderly t line) {line' : List Call} (hsub : line'.Sublist line) :
    Orderly t line' :=
  { h with lined := h.lined.sublist (hsub.append_left _) }

/-- The first of the line has its event accepted. -/
lemma wrote (h : Orderly t (c :: line)) {e : Emitter} (hc : c.resume t.emitter = (e, .wrote)) :
    Orderly (t.credit c e) line := by
  rcases Call.resume_cases hc with
    ⟨-, hhistory, hreceived, hsent, hclaimed, hdelivered⟩ | ⟨hb, -⟩ | ⟨hb, -⟩
  · have hproper : c.Proper := h.lined.proper c (by simp)
    have hline : (t.accepted ++ [c]) ++ line = t.accepted ++ c :: line := by simp
    rw [credit_of_grown hhistory]
    refine ⟨?_, ?_, ?_, ?_, ?_⟩
    · rw [hline]
      exact h.lined.mono (by rw [hsent]; exact List.Subset.refl _) (by rw [hclaimed]; exact id)
    · rw [hhistory, h.history, List.map_append, List.map_singleton]
    · rw [hdelivered hproper, h.delivered, List.any_append, List.any_cons, List.any_nil,
        Bool.or_false]
    · rw [h.got, Channel.delivered, Channel.delivered, hhistory, hreceived,
        List.take_append_of_le_length h.got_le]
    · rw [hhistory, hreceived, List.length_append]
      exact Nat.le_add_right_of_le h.got_le
  · exact absurd hb (by decide)
  · exact absurd hb (by decide)

/-- Serving the line keeps it in order, and leaves nobody waiting who need not. -/
lemma serve (h : Orderly t line) :
    Orderly (t.serve line) (t.serve line).waiting ∧ (t.serve line).Full := by
  induction line generalizing t with
  | nil => exact ⟨{ h with }, fun hne => absurd rfl hne⟩
  | cons c line ih =>
    cases hresume : c.resume t.emitter with
    | mk e answer =>
      rw [Traffic.serve, hresume]
      rcases Call.resume_cases hresume with ⟨rfl, -⟩ | ⟨rfl, rfl⟩ | ⟨rfl, rfl, hc, hfull⟩
      · exact ih (h.wrote hresume)
      · -- the reader is gone, so the call ends without its event
        have hleft : Orderly t line := h.sublist (List.sublist_cons_self c line)
        have hsame : t.credit c t.emitter = t := credit_of_kept rfl
        dsimp only
        rw [hsame]
        exact ih hleft
      · exact ⟨{ h with }, fun _ => ⟨hc, hfull⟩⟩

end Orderly

/-- What a call that is due does before its event is handed over. -/
lemma Orderly.enter (h : Orderly t line) (hc : c.Due t.emitter) :
    Orderly { t with emitter := c.enter t.emitter } (line ++ [c]) := by
  have hchannel := c.channel_enter t.emitter
  have hlined := h.lined.concat hc
  have hdelivered := h.delivered
  refine ⟨?_, ?_, ?_, ?_, ?_⟩
  · rwa [List.append_assoc] at hlined
  · exact (congrArg Channel.history hchannel).trans h.history
  · cases c <;> exact hdelivered
  · exact h.got.trans (congrArg Channel.delivered hchannel).symm
  · exact hchannel ▸ h.got_le

/-- Nobody is overtaken: as long as somebody waits, an event that is handed over has to wait too. -/
lemma Full.nobody (h : t.Full) {e : Emitter} (hc : c.resume (c.enter t.emitter) = (e, .wrote)) :
    t.waiting = [] := by
  by_contra hne
  obtain ⟨hconnected, hfull⟩ := h hne
  rw [← c.channel_enter t.emitter] at hconnected hfull
  have hput := Emitter.put_of_full hconnected hfull c.event
  rw [Call.resume, hput] at hc
  exact absurd (Prod.mk.inj hc).2 (by decide)

/-- A call joins the end of the line, if it has an event, and is served if nobody waits. -/
lemma Orderly.call (h : Orderly t t.waiting) (hfull : t.Full) (c : Call) :
    Orderly (t.act (.call c)) (t.act (.call c)).waiting ∧ (t.act (.call c)).Full := by
  by_cases hdue : c.Due t.emitter
  · have hchannel := c.channel_enter t.emitter
    have hentered := h.enter hdue
    cases hresume : c.resume (c.enter t.emitter) with
    | mk e answer =>
      rw [act, Call.make_of_due hdue, hresume]
      rcases Call.resume_cases hresume with ⟨rfl, -⟩ | ⟨rfl, rfl⟩ | ⟨rfl, rfl, hc, hroom⟩
      · have hnobody : t.waiting = [] := hfull.nobody hresume
        have hline : t.waiting ++ [c] = [c] := by rw [hnobody, List.nil_append]
        have hcredit : t.credit c e =
            ({ t with emitter := c.enter t.emitter } : Traffic).credit c e := by
          rw [credit, credit, hchannel]
        rw [hline] at hentered
        have hwrote := hentered.wrote hresume
        rw [← hcredit] at hwrote
        have hwaiting : (t.credit c e).waiting = [] := hnobody
        refine ⟨?_, fun hne => absurd hwaiting hne⟩
        dsimp only
        rwa [hwaiting]
      · have hleft := hentered.sublist (List.sublist_append_left t.waiting [c])
        have hcredit := credit_of_kept (t := t) (c := c) (congrArg Channel.history hchannel)
        dsimp only
        rw [hcredit]
        refine ⟨hleft, fun hne => ?_⟩
        rw [hchannel]
        exact hfull hne
      · exact ⟨{ hentered with }, fun _ => ⟨hc, hroom⟩⟩
  · -- it has no event, so the line stays as it is
    obtain ⟨sent, answer, hmake, hanswer, hsent⟩ := Call.make_of_not_due hdue
    have hact : t.act (.call c) = { t with emitter := { t.emitter with sent } } := by
      rw [act, hmake]
      cases answer with
      | blocked => exact absurd rfl hanswer
      | _ => exact credit_of_kept rfl
    have hlined : Lined { t.emitter with sent } (t.accepted ++ t.waiting) :=
      h.lined.mono hsent id
    rw [hact]
    exact ⟨⟨hlined, h.history, h.delivered, h.got, h.got_le⟩, hfull⟩

/-- The reader takes what comes next in the stream. -/
lemma Orderly.receive (h : Orderly t line) {e : Emitter} {event? : Option Event}
    (hreceive : t.emitter.receive = (e, event?)) :
    Orderly { t with emitter := e, got := t.got ++ event?.toList } line := by
  rcases Emitter.receive_cases hreceive with ⟨rfl, rfl⟩ | ⟨event, rest, rfl, -, hwaiting, rfl⟩
  · rw [Option.toList_none, List.append_nil]
    exact h
  · rw [Channel.waiting] at hwaiting
    have hlt : t.emitter.channel.received < t.emitter.channel.history.length := by
      by_contra hge
      rw [List.drop_eq_nil_of_le (Nat.not_lt.mp hge)] at hwaiting
      exact absurd hwaiting (by simp)
    have hevent : t.emitter.channel.history[t.emitter.channel.received] = event := by
      rw [List.drop_eq_getElem_cons hlt] at hwaiting
      exact (List.cons.inj hwaiting).1
    refine ⟨h.lined.mono (List.Subset.refl _) id, h.history, h.delivered, ?_, hlt⟩
    rw [h.got, Option.toList_some, Channel.delivered, Channel.delivered, ← hevent,
      List.take_append_getElem]

/-- **One act keeps an emitter orderly.** -/
lemma Orderly.act (h : Orderly t t.waiting) (hfull : t.Full) (a : Act) :
    Orderly (t.act a) (t.act a).waiting ∧ (t.act a).Full := by
  cases a with
  | call c => exact h.call hfull c
  | abandon place =>
    -- the buffer is as full as it was
    have hsub : (t.waiting.eraseIdx place).Sublist t.waiting := List.eraseIdx_sublist ..
    have hleft := h.sublist hsub
    refine ⟨{ hleft with }, fun hne => hfull fun hnil => hne ?_⟩
    exact List.sublist_nil.mp (hnil ▸ hsub)
  | receive =>
    cases hreceive : t.emitter.receive with
    | mk e event? =>
      rw [Traffic.act, hreceive]
      exact (h.receive hreceive).serve
  | disconnect =>
    have hgone : Orderly { t with emitter := t.emitter.disconnect } t.waiting :=
      ⟨h.lined.mono (List.Subset.refl _) id, h.history, h.delivered, h.got, h.got_le⟩
    exact hgone.serve

end Traffic

end ContractConversion
