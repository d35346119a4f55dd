import ContractConversion.Proofs.Session.Departure
import ContractConversion.Server.Http
import ContractConversion.Server.Socket

/-!
# The slots of a server

A server decides on requests while its sessions run, in any order: a `Service.Step` is one request
over either transport, one move of one session, or one reader going away. A session takes its slot
when it is started, and its supervisor gives the slot back as its last move, however the session
ended. So the slots that are taken are as many as there are sessions whose supervisor is not through
(`Service.slots_of_reached`).

What a request asks for (`Arrival.wanted?`) does not depend on the slots: it is there if the request
can be read and there is no objection to its source. Whether the server accepts it
(`Arrival.accepted?`) is then only a matter of whether a slot is free (`Arrival.accepted_iff`).
-/

namespace ContractConversion

/-! ## Slots -/

namespace Admission

variable {a : Admission}

lemma take_of_lt (h : a.active < a.limit) : a.take = some { a with active := a.active + 1 } :=
  if_pos h

lemma take_eq_none (h : ¬ a.active < a.limit) : a.take = none :=
  if_neg h

end Admission

/-! ## Requests -/

/-- The source that a text asks to convert, if it can be read and there is no objection to the
source. -/
def Settings.sourceIn? (settings : Settings) (input : List Text.Symbol) : Option String :=
  match ConversionRequest.parse input with
  | .error _ => none
  | .ok request =>
    match settings.checkInput request.source with
    | .error _ => none
    | .ok () => some request.source

/-- What comes to a server: a request over HTTP, or what comes in on a socket. -/
inductive Arrival where
  | http (r : Http.Request)
  | socket (frames : List Socket.Frame)

namespace Arrival

/-- The source of a request for a conversion that can be read and passes the check. -/
def wanted? (settings : Settings) : Arrival → Option String
  | http r =>
    if Http.Route.ofTarget? r.target = some .convert ∧ r.method = "POST" ∧
        (r.header? "content-type").any MediaType.isJson = true ∧
        r.body.length ≤ settings.bodyLimit then
      settings.sourceIn? (Text.Utf8.symbols r.body)
    else none
  | socket frames =>
    match Socket.opening frames with
    | .request text _ => settings.sourceIn? (Text.symbolsOf text)
    | _ => none

/-- The source with which the server starts a session. -/
def accepted? (server : Server) : Arrival → Option String
  | http r =>
    match Http.answer server r with
    | .convert source => some source
    | .respond _ => none
  | socket frames =>
    match Socket.opening frames with
    | .request text _ =>
      match Socket.convert server text with
      | .ok source => some source
      | .error _ => none
    | _ => none

variable {server : Server} {source : String}

/-- On a socket the decision is made by the text of the request and the slots. -/
lemma convert_socket_iff {text : String} :
    Socket.convert server text = .ok source ↔
      server.settings.sourceIn? (Text.symbolsOf text) = some source ∧
        server.admission.active < server.admission.limit := by
  rw [Socket.convert, Settings.sourceIn?]
  cases ConversionRequest.parse (Text.symbolsOf text) with
  | error fault => simp
  | ok request =>
    dsimp only
    cases server.settings.checkInput request.source with
    | error fault => simp
    | ok =>
      by_cases h : server.admission.active < server.admission.limit
      · simp [Admission.take_of_lt h, h]
      · simp [Admission.take_eq_none h, h]

/-- Over HTTP it is made by the kind and the size of the body, its text and the slots. -/
lemma convert_http_iff {r : Http.Request} :
    Http.convert server r = .ok source ↔
      (r.header? "content-type").any MediaType.isJson = true ∧
        r.body.length ≤ server.settings.bodyLimit ∧
        server.settings.sourceIn? (Text.Utf8.symbols r.body) = some source ∧
        server.admission.active < server.admission.limit := by
  rw [Http.convert, Settings.sourceIn?]
  by_cases hjson : (r.header? "content-type").any MediaType.isJson = true
  case neg =>
    have hrefused : (r.header? "content-type").any MediaType.isJson = false :=
      Bool.eq_false_iff.mpr hjson
    simp [hrefused, bind, Except.bind, throw, throwThe, MonadExceptOf.throw]
  by_cases hsize : r.body.length ≤ server.settings.bodyLimit
  case neg =>
    simp [hjson, hsize, Nat.lt_of_not_le hsize, bind, Except.bind, throw, throwThe,
      MonadExceptOf.throw]
  cases hparse : ConversionRequest.parse (Text.Utf8.symbols r.body) with
  | error fault =>
    simp [hjson, Nat.not_lt.mpr hsize, hparse, bind, Except.bind, Except.mapError]
  | ok request =>
    cases hcheck : server.settings.checkInput request.source with
    | error fault =>
      simp [hjson, Nat.not_lt.mpr hsize, hparse, hcheck, bind, Except.bind, Except.mapError]
    | ok =>
      by_cases h : server.admission.active < server.admission.limit
      · simp [hjson, hsize, Nat.not_lt.mpr hsize, hparse, hcheck, Admission.take_of_lt h, h, bind,
          Except.bind, pure, Except.pure, Except.mapError]
      · simp [hjson, Nat.not_lt.mpr hsize, hparse, hcheck, Admission.take_eq_none h, h, bind,
          Except.bind, Except.mapError, throw, throwThe, MonadExceptOf.throw]

/-- Over HTTP a session is started by a post to the route of conversions only. -/
lemma answer_http_iff {r : Http.Request} :
    Http.answer server r = .convert source ↔
      Http.Route.ofTarget? r.target = some .convert ∧ r.method = "POST" ∧
        Http.convert server r = .ok source := by
  rw [Http.answer]
  cases Http.Route.ofTarget? r.target with
  | none => simp
  | some route =>
    by_cases hmethod : r.method ∈ route.methods
    · cases route with
      | health => simp [hmethod]
      | socket => simp [hmethod]
      | convert =>
        have hpost : r.method = "POST" := by simpa [Http.Route.methods] using hmethod
        dsimp only
        rw [if_neg (not_not.mpr hmethod)]
        cases Http.convert server r <;> simp [hpost]
    · have hpost : ¬(route = .convert ∧ r.method = "POST") := by
        rintro ⟨rfl, hpost⟩
        exact hmethod (by rw [hpost]; decide)
      simp only [hmethod, not_false_eq_true, if_true, reduceCtorEq, Option.some.injEq, false_iff]
      exact fun h => hpost ⟨h.1, h.2.1⟩

/-- **A request that is in order is accepted exactly if a slot is free**, and no other one is. -/
theorem accepted_iff {a : Arrival} :
    a.accepted? server = some source ↔
      a.wanted? server.settings = some source ∧
        server.admission.active < server.admission.limit := by
  cases a with
  | socket frames =>
    rw [accepted?, wanted?]
    cases Socket.opening frames with
    | request text rest =>
      dsimp only
      rw [← convert_socket_iff]
      cases Socket.convert server text <;> simp
    | silence | closed | lost => simp
  | http r =>
    have hanswer : accepted? server (.http r) = some source ↔
        Http.answer server r = .convert source := by
      rw [accepted?]
      cases Http.answer server r <;> simp
    rw [hanswer, answer_http_iff, convert_http_iff, wanted?]
    constructor
    · rintro ⟨htarget, hmethod, hjson, hsize, hsource, hfree⟩
      exact ⟨by rw [if_pos ⟨htarget, hmethod, hjson, hsize⟩]; exact hsource, hfree⟩
    · rintro ⟨hwanted, hfree⟩
      split at hwanted
      next horder => exact ⟨horder.1, horder.2.1, horder.2.2.1, horder.2.2.2, hwanted, hfree⟩
      next => cases hwanted

end Arrival

/-! ## Sessions that hold slots -/

/-- The entry that a deed put into the audit trail. -/
def Deed.entry? : Deed → Option AuditEntry
  | recorded entry => some entry
  | _ => none

namespace Relay

variable {outside : Surroundings} {budget : ℕ} {r r' : Relay}

/-- The supervisor is not through. -/
def unended (r : Relay) : Bool :=
  match r.supervisor with
  | .finished => false
  | _ => true

lemma unended_of_leaving (h : r.supervisor = .leaving) : r.unended = true := by
  rw [unended, h]

/-- A move touches the slots only if it is the last one of the supervisor, and that one gives one
slot back. -/
lemma Move.slot (h : Move outside budget r r') :
    (r'.slots = r.slots ∧ r'.unended = r.unended) ∨
      (r.supervisor = .leaving ∧ r'.unended = false ∧ r'.slots = r.slots.release) := by
  cases h with
  | attend _ hs | quit _ hs | close _ hs | closeWaits _ hs | closeEnds _ hs =>
    exact .inl ⟨rfl, by simp [unended, hs]⟩
  | release hs => exact .inr ⟨hs, rfl, rfl⟩
  | _ => exact .inl ⟨rfl, rfl⟩

end Relay

/-! ## The server at work -/

/-- A session that was started, with the surroundings in which it runs. -/
structure Hosted where
  outside : Surroundings
  relay : Relay

/-- A server at work: its settings, its slots, and the sessions that were started, the first one
first. The slots that a session sees are those of the server. -/
structure Service where
  settings : Settings
  slots : Admission
  sessions : List Hosted := []

namespace Service

/-- The server as it decides on a request. -/
def server (s : Service) : Server :=
  { settings := s.settings, admission := s.slots }

/-- The number of sessions whose supervisor is not through. -/
def running (s : Service) : ℕ :=
  s.sessions.countP (·.relay.unended)

/-- What the sessions recorded. -/
def audit (s : Service) : List AuditEntry :=
  s.sessions.flatMap fun h => h.relay.deeds.filterMap Deed.entry?

/-- The calls to the outside that the sessions began. -/
def begun (s : Service) : List OutsideCall :=
  s.sessions.flatMap (·.relay.begun)

/-- A request comes in: the session that it starts, if any, takes a slot. -/
def arrive (s : Service) (a : Arrival) (id : Uuid) (outside : Surroundings) : Service :=
  match a.accepted? s.server, s.slots.take with
  | some source, some slots =>
    { s with
      slots
      sessions := s.sessions ++ [⟨outside, .start s.settings id source slots⟩] }
  | _, _ => s

/-- One thing that happens to a server. -/
inductive Step : Service → Service → Prop
  | arrive {s : Service} (a : Arrival) (id : Uuid) (outside : Surroundings) :
      Step s (s.arrive a id outside)
  /-- One of the parties of a session makes a move. -/
  | move {s : Service} {before rest : List Hosted} {h : Hosted} {r : Relay}
      (hs : s.sessions = before ++ h :: rest)
      (hm : Relay.Move h.outside s.settings.timeoutMs { h.relay with slots := s.slots } r) :
      Step s { s with slots := r.slots, sessions := before ++ { h with relay := r } :: rest }
  /-- The reader of a session goes away. -/
  | abandon {s : Service} {before rest : List Hosted} {h : Hosted}
      (hs : s.sessions = before ++ h :: rest) :
      Step s { s with sessions := before ++ { h with relay := h.relay.abandon } :: rest }

/-- What a server with so many slots can come to, whatever happens to it and in whatever order. -/
def Reached (settings : Settings) (limit : ℕ) : Service → Prop :=
  Relation.ReflTransGen Step ⟨settings, { limit }, []⟩

/-- The slots that are taken are those of the sessions whose supervisor is not through. -/
structure Sound (settings : Settings) (limit : ℕ) (s : Service) : Prop where
  settings_eq : s.settings = settings
  limit_eq : s.slots.limit = limit
  active : s.slots.active = s.running
  le : s.slots.active ≤ limit

section

variable {s s' : Service} {settings : Settings} {limit : ℕ} {a : Arrival} {source : String}

/-- A request that is accepted starts a session, and takes a slot for it. -/
lemma arrive_accepted (id : Uuid) (outside : Surroundings)
    (h : a.accepted? s.server = some source) :
    ∃ slots, slots.limit = s.slots.limit ∧ slots.active = s.slots.active + 1 ∧
      s.arrive a id outside =
        { s with
          slots
          sessions := s.sessions ++ [⟨outside, .start s.settings id source slots⟩] } := by
  have htake : s.slots.take = some { s.slots with active := s.slots.active + 1 } :=
    Admission.take_of_lt (Arrival.accepted_iff.mp h).2
  refine ⟨{ s.slots with active := s.slots.active + 1 }, rfl, rfl, ?_⟩
  rw [arrive, h, htake]

/-- A request that is refused changes nothing. -/
lemma arrive_refused (id : Uuid) (outside : Surroundings) (h : a.accepted? s.server = none) :
    s.arrive a id outside = s := by
  rw [arrive, h]

/-- A slot is only given back if it was taken. -/
lemma Sound.active_pos (hsound : s.Sound settings limit) {h : Hosted} (hh : h ∈ s.sessions)
    (hs : h.relay.supervisor = .leaving) : 0 < s.slots.active := by
  rw [hsound.active]
  exact List.countP_pos_iff.mpr ⟨h, hh, Relay.unended_of_leaving hs⟩

/-- **What happens to a server keeps its slots sound.** -/
theorem Step.sound (hstep : Step s s') (hsound : s.Sound settings limit) :
    s'.Sound settings limit := by
  have hactive := hsound.active
  have hlimit := hsound.limit_eq
  have hle := hsound.le
  cases hstep with
  | arrive a id outside =>
    cases haccepted : a.accepted? s.server with
    | none =>
      rw [arrive_refused id outside haccepted]
      exact hsound
    | some source =>
      have hfree : s.slots.active < s.slots.limit := (Arrival.accepted_iff.mp haccepted).2
      obtain ⟨slots, hslots, hone, harrive⟩ := arrive_accepted id outside haccepted
      have hstarted : (Relay.start s.settings id source slots).unended = true := rfl
      rw [harrive]
      refine ⟨hsound.settings_eq, hslots.trans hlimit, ?_, by dsimp only; omega⟩
      rw [running, List.countP_append, hone, hactive]
      simp [running, hstarted]
  | @move before rest h r hs hm =>
    have hmem : h ∈ s.sessions := hs ▸ List.mem_append_right _ List.mem_cons_self
    rw [running, hs, List.countP_append, List.countP_cons] at hactive
    rcases hm.slot with ⟨hslots, hunended⟩ | ⟨hleaving, hunended, hslots⟩
    · -- the session goes on, or was through before
      have hsame : r.unended = h.relay.unended := hunended
      refine ⟨hsound.settings_eq, ?_, ?_, ?_⟩
      · rw [hslots, hlimit]
      · rw [hslots, running, List.countP_append, List.countP_cons, hsame]
        exact hactive
      · rw [hslots]
        exact hle
    · -- the supervisor gives the slot back, and is through
      have hpos : 0 < s.slots.active := hsound.active_pos hmem hleaving
      have hheld : h.relay.unended = true := Relay.unended_of_leaving hleaving
      have hreleased : r.slots.active = s.slots.active - 1 := by
        rw [hslots]
        rfl
      rw [hheld, if_pos rfl] at hactive
      refine ⟨hsound.settings_eq, ?_, ?_, ?_⟩
      · rw [hslots]
        exact hlimit
      · rw [hreleased, running, List.countP_append, List.countP_cons, hunended,
          if_neg Bool.false_ne_true]
        omega
      · rw [hreleased]
        omega
  | @abandon before rest h hs =>
    refine ⟨hsound.settings_eq, hlimit, ?_, hle⟩
    rw [hactive, running, hs, running, List.countP_append, List.countP_append, List.countP_cons,
      List.countP_cons]
    rfl

/-- Whatever happens to a server, its slots are sound. -/
lemma sound_of_reached (h : Reached settings limit s) : s.Sound settings limit := by
  induction h with
  | refl => exact ⟨rfl, rfl, rfl, Nat.zero_le limit⟩
  | tail _ hstep ih => exact hstep.sound ih

/-- **The ceiling holds and no slot leaks.** Whatever requests come in over both transports and
whatever becomes of the sessions, the slots that are taken are as many as there are sessions whose
supervisor is not through, and no more than the limit; a slot that is given back was taken. A
request that is in order is accepted exactly if a slot is free, and takes that slot for its session.
A request that is refused touches neither the slots nor the audit trail, and calls nobody. -/
theorem slots_of_reached (h : Reached settings limit s) :
    s.slots.limit = limit ∧ s.slots.active = s.running ∧ s.slots.active ≤ limit ∧
    (∀ hosted ∈ s.sessions, hosted.relay.supervisor = .leaving →
      s.slots.release.active + 1 = s.slots.active) ∧
    (∀ (a : Arrival) source, a.wanted? settings = some source →
      (a.accepted? s.server = some source ↔ s.slots.active < limit)) ∧
    (∀ a : Arrival, a.wanted? settings = none → a.accepted? s.server = none) ∧
    ∀ (a : Arrival) id outside,
      (∀ source, a.accepted? s.server = some source →
        ∃ slots, slots.active = s.slots.active + 1 ∧
          s.arrive a id outside =
            { s with
              slots
              sessions := s.sessions ++ [⟨outside, .start settings id source slots⟩] }) ∧
      (a.accepted? s.server = none →
        (s.arrive a id outside).slots = s.slots ∧ (s.arrive a id outside).audit = s.audit ∧
          (s.arrive a id outside).begun = s.begun) := by
  have hsound := sound_of_reached h
  obtain rfl := hsound.settings_eq
  obtain rfl := hsound.limit_eq
  refine ⟨rfl, hsound.active, hsound.le, fun hosted hmem hleaving => ?_,
    fun a source hwanted => ?_, fun a hwanted => ?_, fun a id outside => ⟨fun source h => ?_,
    fun h => ?_⟩⟩
  · exact Nat.sub_add_cancel (hsound.active_pos hmem hleaving)
  · rw [Arrival.accepted_iff]
    exact and_iff_right hwanted
  · apply Option.eq_none_iff_forall_ne_some.mpr
    intro source haccepted
    have hsource := (Arrival.accepted_iff.mp haccepted).1
    rw [show s.server.settings = s.settings from rfl, hwanted] at hsource
    cases hsource
  · obtain ⟨slots, -, hone, harrive⟩ := arrive_accepted id outside h
    exact ⟨slots, hone, harrive⟩
  · rw [arrive_refused id outside h]
    exact ⟨rfl, rfl, rfl⟩

/-- What one session comes to is what the server comes to, the other sessions being as they are. -/
lemma reached_of_moves {slots : Admission} {before rest : List Hosted} {outside : Surroundings}
    {r r' : Relay} (hslots : r.slots = slots)
    (h : Reached settings limit ⟨settings, slots, before ++ ⟨outside, r⟩ :: rest⟩)
    (hmoves : Relation.ReflTransGen (Relay.Move outside settings.timeoutMs) r r') :
    Reached settings limit ⟨settings, r'.slots, before ++ ⟨outside, r'⟩ :: rest⟩ := by
  induction hmoves with
  | refl => exact hslots ▸ h
  | @tail r₁ r₂ _ hm ih =>
    exact ih.tail (Step.move (s := ⟨settings, r₁.slots, before ++ ⟨outside, r₁⟩ :: rest⟩)
      (h := ⟨outside, r₁⟩) rfl hm)

/-- One slot, and a session that breaks down in its first call. While it runs, a request on a socket
that is in order is refused, as one is that cannot be read; when it is over, the slot is free. -/
theorem slots_of_reached_panicked :
    let settings : Settings := { minSourceChars := 10 }
    let outside : Surroundings := { complete := fun _ _ => .panics, validate := fun _ _ => .hangs }
    let first : Arrival := .http (.ofSource "two contracts")
    let second : Arrival :=
      .socket [.ping, .text (Wire.conversionRequest.encode ⟨"two contracts"⟩).compact]
    ∃ started ended, Reached settings 1 started ∧ Reached settings 1 ended ∧
      started = Service.arrive ⟨settings, { limit := 1 }, []⟩ first .greatest outside ∧
      started.slots.active = 1 ∧ second.wanted? settings = some "two contracts" ∧
      second.accepted? started.server ≠ some "two contracts" ∧
      (started.arrive (.socket [.text "no json"]) .greatest outside).begun = started.begun ∧
      ended.sessions.map (·.relay.session) = [.halted .panicked] ∧ ended.slots.active = 0 ∧
      second.accepted? ended.server = some "two contracts" := by
  intro settings outside first second
  have hfirst : first.accepted? { settings, admission := { limit := 1 } } =
      some "two contracts" := by
    decide +kernel
  have hwanted : second.wanted? settings = some "two contracts" := by
    decide +kernel
  have hstarted : arrive ⟨settings, { limit := 1 }, []⟩ first .greatest outside =
      ⟨settings, ⟨1, 1⟩, [⟨outside, .start settings .greatest "two contracts" ⟨1, 1⟩⟩]⟩ := by
    rw [arrive, server, hfirst]
    rfl
  have hbegins : Reached settings 1
      ⟨settings, ⟨1, 1⟩, [⟨outside, .start settings .greatest "two contracts" ⟨1, 1⟩⟩]⟩ :=
    hstarted ▸ Relation.ReflTransGen.refl.tail (.arrive first .greatest outside)
  obtain ⟨r, hmoves, hr, hslots⟩ : ∃ r, Relation.ReflTransGen
      (Relay.Move outside settings.timeoutMs) (.start settings .greatest "two contracts" ⟨1, 1⟩) r ∧
      r.session = .halted .panicked ∧ r.slots = ⟨1, 0⟩ := by
    have hbegan : Relay.Reached outside settings .greatest "two contracts" ⟨1, 1⟩
        (.start settings .greatest "two contracts" ⟨1, 1⟩) := .refl
    have htells := ((hbegan.tail (.record rfl)).tail (.write rfl rfl rfl (by decide))).tail
      (.look rfl rfl)
    have hbreaks := (htells.tail (.breakCall rfl rfl)).tail (.attend rfl rfl)
    have hcloses := (hbreaks.tail (.close rfl rfl rfl rfl (by decide))).tail (.release rfl)
    exact ⟨_, hcloses, rfl, rfl⟩
  have hends : Reached settings 1 ⟨settings, r.slots, [⟨outside, r⟩]⟩ :=
    @reached_of_moves settings 1 ⟨1, 1⟩ [] [] outside _ r rfl hbegins hmoves
  obtain ⟨-, -, -, -, hfull, hothers, hrefused⟩ := slots_of_reached hbegins
  obtain ⟨-, -, -, -, hfree, -⟩ := slots_of_reached hends
  have hnone := hothers (.socket [.text "no json"]) (by decide +kernel)
  refine ⟨_, _, hbegins, hends, hstarted.symm, rfl, hwanted, ?_, ?_, ?_, ?_, ?_⟩
  · exact mt (hfull second _ hwanted).mp (by decide)
  · exact ((hrefused _ .greatest outside).2 hnone).2.2
  · exact congrArg (fun session => [session]) hr
  · rw [hslots]
  · exact (hfree second _ hwanted).mpr (by rw [hslots]; exact Nat.zero_lt_one)

end

end Service

/-! ## Sessions at rest -/

/-- What holds of every session, be its reader there or not. -/
structure Hosted.Regular (settings : Settings) (h : Hosted) : Prop where
  watched : h.relay.Watched
  scene : ∃ id source, Scene.Reached settings id source h.relay.scene

namespace Hosted.Regular

variable {settings : Settings} {h : Hosted}

lemma move {slots : Admission} {r : Relay} (hregular : h.Regular settings)
    (hm : Relay.Move h.outside settings.timeoutMs { h.relay with slots := slots } r) :
    ({ h with relay := r } : Hosted).Regular settings := by
  obtain ⟨hwatched, id, source, hscene⟩ := hregular
  refine ⟨hm.watched hwatched, id, source, ?_⟩
  rcases hm.scene hwatched with ⟨hsame, -⟩ | hmove
  · rw [hsame]
    exact hscene
  · exact hscene.tail hmove

lemma abandon (hregular : h.Regular settings) :
    ({ h with relay := h.relay.abandon } : Hosted).Regular settings := by
  obtain ⟨hwatched, id, source, hscene⟩ := hregular
  refine ⟨hwatched, id, source, ?_⟩
  cases hconnected : h.relay.emitter.channel.connected with
  | true => exact hscene.tail (.leave hconnected)
  | false =>
    -- the reader was gone before
    have hsame : h.relay.emitter.disconnect = h.relay.emitter := by
      rw [Emitter.disconnect, Channel.disconnect, ← hconnected]
    have habandon : h.relay.abandon.scene = h.relay.scene := by
      rw [Relay.abandon, hsame]
    rw [habandon]
    exact hscene

/-- **A session that cannot move is through**: a reader that is there has got everything, so that
nobody waits for room. -/
theorem finished {slots : Admission} (hregular : h.Regular settings)
    (hrest : Relay.AtRest h.outside settings.timeoutMs { h.relay with slots := slots }) :
    h.relay.unended = false := by
  obtain ⟨-, id, source, hscene⟩ := hregular
  have hsane := Scene.sane_of_reached hscene
  have hsound := Scene.sound_of_reached ofSource_ends hscene
  have hroom : ∀ event e, h.relay.emitter.put event ≠ (e, .blocked) := by
    intro event e hput
    have hfull := Emitter.full_of_put_blocked hput
    have hroomy : 0 < h.relay.emitter.channel.capacity := hsane.roomy
    have hconnected : h.relay.emitter.channel.connected = true := by
      by_contra hgone
      rw [Emitter.put, Channel.offer, if_pos (by simpa using hgone)] at hput
      cases hput
    -- the buffer is full, so there is an event for the reader to take
    have hlt : h.relay.emitter.channel.received < h.relay.emitter.channel.history.length := by
      rw [Channel.waiting, List.length_drop] at hfull
      omega
    obtain ⟨event, hreceive⟩ := Emitter.receive_of_lt hconnected hlt
    exact hrest _ (.take hreceive)
  obtain ⟨hfinished, -⟩ :=
    Relay.finished_of_unblocked (r := { h.relay with slots := slots }) hsound hroom hrest
  have hover : h.relay.supervisor = .finished := hfinished
  rw [Relay.unended, hover]

end Hosted.Regular

namespace Service

variable {s s' : Service} {settings : Settings} {limit : ℕ}

lemma Step.regular (hstep : Step s s') (hs : ∀ h ∈ s.sessions, h.Regular s.settings) :
    s'.settings = s.settings ∧ ∀ h ∈ s'.sessions, h.Regular s.settings := by
  cases hstep with
  | arrive a id outside =>
    cases haccepted : a.accepted? s.server with
    | none =>
      rw [arrive_refused id outside haccepted]
      exact ⟨rfl, hs⟩
    | some source =>
      obtain ⟨slots, -, -, harrive⟩ := arrive_accepted id outside haccepted
      rw [harrive]
      constructor
      · rfl
      · intro h hmem
        rcases List.mem_append.mp hmem with hmem | hmem
        · exact hs h hmem
        · obtain rfl := List.mem_singleton.mp hmem
          exact ⟨.inl rfl, id, source, .refl⟩
  | @move before rest h r hsessions hm =>
    rw [hsessions, List.forall_mem_append, List.forall_mem_cons] at hs
    refine ⟨rfl, List.forall_mem_append.mpr ⟨hs.1, List.forall_mem_cons.mpr ⟨?_, hs.2.2⟩⟩⟩
    exact hs.2.1.move hm
  | @abandon before rest h hsessions =>
    rw [hsessions, List.forall_mem_append, List.forall_mem_cons] at hs
    exact ⟨rfl, List.forall_mem_append.mpr ⟨hs.1, List.forall_mem_cons.mpr
      ⟨hs.2.1.abandon, hs.2.2⟩⟩⟩

lemma regular_of_reached (h : Reached settings limit s) :
    s.settings = settings ∧ ∀ h ∈ s.sessions, h.Regular settings := by
  induction h with
  | refl => exact ⟨rfl, fun h hmem => absurd hmem List.not_mem_nil⟩
  | tail _ hstep ih =>
    obtain ⟨rfl, hs⟩ := ih
    exact hstep.regular hs

/-- **When no session can move, every slot is free.** -/
theorem idle_of_atRest (h : Reached settings limit s)
    (hrest : ∀ hosted ∈ s.sessions,
      Relay.AtRest hosted.outside settings.timeoutMs { hosted.relay with slots := s.slots }) :
    s.slots.active = 0 := by
  rw [(sound_of_reached h).active, running, List.countP_eq_zero]
  intro hosted hmem
  rw [((regular_of_reached h).2 hosted hmem).finished (hrest hosted hmem)]
  exact Bool.false_ne_true

end Service

end ContractConversion
