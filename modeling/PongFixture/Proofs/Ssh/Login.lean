import PongFixture.Proofs.Ssh.Isolation

/-!
# No service without the right pair

A client is served only after it has sent the accepted user name with the accepted password on the
connection that it has (`service_needs_login`). Until then it is sent nothing, no channel is
reported for it, and whatever it has tried before, on this connection or another, an attempt
succeeds exactly with that pair.

What a client has done on the connection that it has is read off the steps alone (`DoneOn`). The
invariant ties it to what the server knows of the client (`Session.Keyed`): as long as the transport
is up, a client is authenticated exactly when it has sent the accepted pair, and a client that is
not has no channels, and a worker that serves none. An action keeps this (`Session.Keyed.act`), the
steps of the others are time that passes, and so a run keeps it (`Server.guarded_steps`).
-/

set_option autoImplicit false

namespace PongFixture

/-- Whether a line tells of a channel: that one was opened, or what came in on it. -/
def Event.tellsOfChannel (line : Event) : Bool :=
  line.message == "Channel opened" || line.opensWith "Received: "

namespace Ssh

/-! ## What a client has done on its connection -/

/-- Whether a client has done something on the connection that it has: it has neither connected anew
nor dropped the connection since. -/
def DoneOn (client : Client) (steps : List Step) (action : Action) : Prop :=
  ∃ before after, steps = before ++ ⟨client, action⟩ :: after ∧
    ∀ step ∈ after, step.client = client → step.action ≠ .connect ∧ step.action ≠ .drop

/-- Whether a client has sent the accepted pair on the connection that it has. -/
def LoggedIn (credentials : Credentials) (client : Client) (steps : List Step) : Prop :=
  DoneOn client steps (.password credentials.username credentials.password)

/-- What has been done after one more step: what that step does, and what had been done before, if
the step does not end the connection. -/
theorem doneOn_concat {client : Client} {steps : List Step} {step : Step} {action : Action} :
    DoneOn client (steps ++ [step]) action ↔
      step = ⟨client, action⟩ ∨
        (DoneOn client steps action ∧
          (step.client = client → step.action ≠ .connect ∧ step.action ≠ .drop)) := by
  constructor
  · rintro ⟨before, after, hsteps, hafter⟩
    rcases List.eq_nil_or_concat after with rfl | ⟨between, last, rfl⟩
    · have hlast := (List.append_inj' hsteps rfl).2
      exact .inl (List.cons.inj hlast).1
    · have hsplit : steps ++ [step] = (before ++ ⟨client, action⟩ :: between) ++ [last] := by
        simpa using hsteps
      obtain ⟨rfl, hlast⟩ := List.append_inj' hsplit rfl
      obtain rfl := (List.cons.inj hlast).1
      refine .inr ⟨⟨before, between, rfl, fun other hother => hafter other ?_⟩, hafter step ?_⟩
      · simp [hother]
      · simp
  · rintro (rfl | ⟨⟨before, after, rfl, hafter⟩, hkept⟩)
    · exact ⟨steps, [], rfl, fun other hother => by cases hother⟩
    · refine ⟨before, after ++ [step], by simp, fun other hother => ?_⟩
      rcases List.mem_append.mp hother with hbetween | hlast
      · exact hafter other hbetween
      · exact List.mem_singleton.mp hlast ▸ hkept

/-! ## Lines that tell of a channel -/

/-- The lines that tell of a channel. -/
def channelLines (events : List Event) : List Event := events.filter Event.tellsOfChannel

/-- The lines that tell of a channel come in the sequence of the events. -/
@[simp] theorem channelLines_append (first second : List Event) :
    channelLines (first ++ second) = channelLines first ++ channelLines second :=
  List.filter_append ..

/-- No line tells of a channel exactly if none reports a chunk and none that a channel was opened.
-/
theorem channelLines_eq_nil_iff {events : List Event} :
    channelLines events = [] ↔
      chunkLines events = [] ∧ ∀ line ∈ events, line.message ≠ "Channel opened" := by
  simp only [channelLines, chunkLines, List.filter_eq_nil_iff, Event.tellsOfChannel,
    Bool.or_eq_true, beq_iff_eq, not_or]
  exact ⟨fun h => ⟨fun line hline => (h line hline).2, fun line hline => (h line hline).1⟩,
    fun h line hline => ⟨h.2 line hline, h.1 line hline⟩⟩

/-- An outcome by which a client is not served: it is sent nothing, it is granted nothing, and no
line tells of a channel. -/
structure Outcome.Unserved (outcome : Outcome) : Prop where
  octets : outcome.reply.octets = []
  grants : outcome.reply.grants = false
  lines : channelLines outcome.events = []

/-- What a worker may say: that octets came in, that their end did, an error, that no channel came,
and that it is done. -/
theorem message_step {assignment : Assignment} {stage : Stage} {happening : Happening}
    {line : Event} (h : line ∈ eventsOf (stage.step assignment happening).1) :
    (∃ bytes, line = received bytes) ∨ (∃ message, assignment.complaint message = .logged line) ∨
      line.message ∈
        ["Connection closed by peer", "No channel opened in time", "SSH transport closed"] := by
  have hleave {error : Option String} (hline : .logged line ∈ (assignment.leave error).1) :
      (∃ message, assignment.complaint message = .logged line) ∨
        line.message ∈
          ["Connection closed by peer", "No channel opened in time", "SSH transport closed"] :=
    (mem_leave hline).imp_right fun hclosed => by simp [hclosed]
  rcases step_cases assignment stage happening with hstep | ⟨-, hstep⟩ | ⟨acts, standing, hstep⟩ |
    ⟨message, hstep⟩ | ⟨error, hstep⟩ | ⟨-, -, hstep⟩ <;> rw [hstep, mem_eventsOf] at h
  · cases h
  · cases h
  · rw [(afterActs_eq assignment acts standing).1, List.append_assoc] at h
    rcases List.mem_append.mp h with hacts | hlast
    · rcases mem_deedsOf hacts with ⟨act, hact⟩ | ⟨other, hother, hsaid⟩
      · cases hact
      · obtain rfl := Deed.logged.inj hother
        exact hsaid.imp_right fun hclosed => .inr (by simp [hclosed])
    · exact .inr (hleave (mem_leave_of_mem hlast))
  · exact .inr (.inl ⟨message, (List.mem_singleton.mp h).symm⟩)
  · exact .inr (hleave h)
  · rcases List.mem_cons.mp h with himpatience | hlast
    · obtain rfl := Deed.logged.inj himpatience
      exact .inr (.inr (by simp))
    · exact .inr (hleave hlast)

/-- That a channel was opened is told by the handler and never by the worker. -/
theorem opened_not_mem_step {assignment : Assignment} {stage : Stage} {happening : Happening}
    {line : Event} (h : line ∈ eventsOf (stage.step assignment happening).1) :
    line.message ≠ "Channel opened" := by
  intro hmessage
  rcases message_step h with ⟨bytes, rfl⟩ | ⟨message, hcomplaint⟩ | hother
  · simpa [received] using congrArg String.toList hmessage
  · rw [← Deed.logged.inj hcomplaint] at hmessage
    simpa using congrArg String.toList hmessage
  · simp [hmessage] at hother

namespace Link

/-- The end of a transport does not report that a channel was opened. -/
theorem opened_not_mem_sever {link : Link} {error : Option String} {line : Event}
    (h : line ∈ eventsOf (link.sever error).1) : line.message ≠ "Channel opened" := by
  simp only [sever, Stage.steps, List.append_nil, eventsOf_append, List.mem_append] at h
  rcases h with hended | harrived
  · exact opened_not_mem_step hended
  · exact opened_not_mem_step harrived

/-- Time does not report that a channel was opened. -/
theorem opened_not_mem_elapse {link : Link} {ms : Nat} {line : Event}
    (h : line ∈ eventsOf (link.elapse ms).1) : line.message ≠ "Channel opened" := by
  unfold elapse at h
  split at h
  · exact opened_not_mem_step h
  · split at h
    · unfold giveUp at h
      split at h
      · exact opened_not_mem_step h
      · exact opened_not_mem_sever h
    · cases h

end Link

namespace Session

/-- Time makes no session tell of a channel. -/
@[simp] theorem channelLines_elapse (session : Session) (ms : Nat) :
    channelLines (session.elapse ms).1 = [] :=
  channelLines_eq_nil_iff.mpr
    ⟨(silent_elapse session.link ms).lines_eq, fun _ => Link.opened_not_mem_elapse⟩

/-- The end of the transport makes no session tell of a channel. -/
@[simp] theorem channelLines_sever (session : Session) (error : String) :
    channelLines (session.sever error).1 = [] :=
  channelLines_eq_nil_iff.mpr
    ⟨(silent_sever session.link _).lines_eq, fun _ => Link.opened_not_mem_sever⟩

/-- The judgement of a password does not tell of a channel. -/
@[simp] theorem channelLines_onPassword (handler : Handler) (username password : String) :
    channelLines (handler.onPassword username password).2 = [] := by
  unfold Handler.onPassword
  split <;> simp [channelLines, Event.tellsOfChannel, Handler.report, Event.opensWith,
    List.isPrefixOf]

/-- Nothing is told of a channel while an answer is held back. -/
@[simp] theorem channelLines_holdBack (session : Session) :
    channelLines session.holdBack.1 = [] := by
  simp [holdBack]

/-- Only a request for a session channel makes the handler tell of one, and the line names the
peer. -/
theorem opened_of_mem_openChannel {session : Session} {name : String} {request : OpenRequest}
    {line : Event} (h : line ∈ (session.openChannel name request).events)
    (hmessage : line.message = "Channel opened") :
    line.fields.head? = some (.plain "peer" session.handler.peer) := by
  cases hup : session.link.isUp with
  | false => simp [openChannel, hup] at h
  | true =>
    cases hauth : session.authenticated with
    | false =>
      have hsevered : line ∈ (session.sever "early eof").1 := by
        simpa [openChannel, hup, hauth] using h
      exact absurd hmessage
        ((channelLines_eq_nil_iff.mp (session.channelLines_sever "early eof")).2 line hsevered)
    | true =>
      cases request with
      | streamlocal => simp [openChannel, hup, hauth] at h
      | decided kind =>
        have hrequest : line ∈ (session.heard.request name kind).events := by
          simpa [openChannel, hup, hauth] using h
        cases kind with
        | session =>
          rw [request_session] at hrequest
          rcases List.mem_append.mp hrequest with hreport | hpassed
          · rw [List.mem_singleton.mp hreport]
            rfl
          · unfold handOver at hpassed
            split at hpassed
            · cases hpassed
            · exact absurd hmessage (opened_not_mem_step hpassed)
        | x11 | directTcpip =>
          rw [List.mem_singleton.mp hrequest] at hmessage
          simp [Handler.report] at hmessage

/-- Whatever an action comes to, a line that tells of a new channel names the peer. -/
theorem opened_of_mem_act {session : Session} {action : Action} {line : Event}
    (h : line ∈ (session.act action).events) (hmessage : line.message = "Channel opened") :
    line.fields.head? = some (.plain "peer" session.handler.peer) := by
  have hchannel (name : String) (effect : Session → Channel → List Event × Session)
      (heffect : ∀ channel, ∀ line ∈ (effect session.heard channel).1,
        line.message ≠ "Channel opened") :
      line ∉ (session.onChannel name effect).events := by
    intro hline
    rcases session.onChannel_cases name effect with hact | ⟨-, hact⟩ | ⟨-, -, channel, hact⟩ <;>
      rw [hact] at hline
    · cases hline
    · cases hline
    · exact heffect channel line hline hmessage
  have harrive (arrivals : List Exchange.Arrival) (channel : Channel) :
      ∀ line ∈ (session.heard.arrive channel arrivals).1, line.message ≠ "Channel opened" := by
    intro line hline
    unfold arrive at hline
    split at hline
    · exact opened_not_mem_step hline
    · cases hline
  have htold {events : List Event} (hline : line ∈ events) (hnone : channelLines events = []) :
      False :=
    (channelLines_eq_nil_iff.mp hnone).2 line hline hmessage
  cases action with
  | connect => cases h
  | password username password =>
    simp only [act] at h
    rcases session.tryPassword_cases username password with hact | hact | hact | hact <;>
      rw [hact] at h
    · cases h
    · cases h
    · exact (htold h (channelLines_onPassword _ _ _)).elim
    · exact (htold h (by simp)).elim
  | askMethods username =>
    simp only [act] at h
    rcases session.askMethods_cases with hact | hact | hact | hact <;> rw [hact] at h
    · cases h
    · cases h
    · cases h
    · exact (htold h (channelLines_holdBack _)).elim
  | openChannel name request =>
    exact opened_of_mem_openChannel h hmessage
  | send name bytes => exact absurd h (hchannel name _ (harrive _))
  | sendExtended name bytes => exact absurd h (hchannel name _ fun _ _ hline => by cases hline)
  | endInput name => exact absurd h (hchannel name _ (harrive _))
  | closeChannel name => exact absurd h (hchannel name _ (harrive _))
  | wait ms => exact (htold h (session.channelLines_elapse ms)).elim
  | disconnect | drop => exact (htold h (session.channelLines_sever _)).elim

/-! ## What an attempt decides -/

/-- On a transport that is up, an attempt of a client that is not authenticated succeeds exactly
with the accepted pair. -/
theorem tryPassword_eq {session : Session} (hup : session.link.isUp = true)
    (hauth : session.authenticated = false) (username password : String) :
    session.tryPassword username password =
      if username = session.handler.credentials.username ∧
          password = session.handler.credentials.password then
        ⟨.authenticated .success,
          [session.handler.report "Password accepted" [.text "user" username]], 0,
          some { session.attempting with authenticated := true }⟩
      else
        ⟨.authenticated (.failure [.password]),
          session.handler.report "Password rejected" [.text "user" username] ::
            session.attempting.holdBack.1,
          rejectionDelay + settlingTime, some session.attempting.holdBack.2⟩ := by
  by_cases hpair : username = session.handler.credentials.username ∧
      password = session.handler.credentials.password <;>
    simp [tryPassword, hup, hauth, Handler.onPassword, Credentials.judge, hpair, heard, attempting,
      methods]

/-- A failed attempt offers passwords, and nothing else. -/
theorem remaining_of_failure {session : Session} {action : Action} {remaining : List Method}
    (h : (session.act action).reply = .authenticated (.failure remaining)) :
    remaining = [.password] := by
  have hchannel (name : String) (effect : Session → Channel → List Event × Session) :
      (session.onChannel name effect).reply ≠ .authenticated (.failure remaining) := by
    rcases session.onChannel_cases name effect with hact | ⟨-, hact⟩ | ⟨-, -, channel, hact⟩ <;>
      rw [hact] <;> exact fun hreply => by cases hreply
  cases action with
  | connect | wait | disconnect | drop => cases h
  | password username password =>
    simp only [act] at h
    rcases session.tryPassword_cases username password with hact | hact | hact | hact <;>
      rw [hact] at h <;> cases h
    rfl
  | askMethods username =>
    simp only [act] at h
    rcases session.askMethods_cases with hact | hact | hact | hact <;>
      rw [hact] at h <;> cases h
    · rfl
    · rfl
  | openChannel name request =>
    simp only [act] at h
    rcases session.openChannel_cases name request with hact | hact | ⟨events, -, hact⟩ |
      ⟨-, -, -, hact⟩ <;> rw [hact] at h <;> cases h
  | send | sendExtended | endInput | closeChannel => exact absurd h (hchannel _ _)

/-! ## Before a client is authenticated -/

/-- A client that is neither authenticated nor has a channel is not served. -/
theorem unserved_act {session : Session} (hauth : session.authenticated = false)
    (hchannels : session.channels = []) (action : Action) : (session.act action).Unserved := by
  have hnone (name : String) (effect : Session → Channel → List Event × Session) :
      session.onChannel name effect = ⟨.noChannel, [], 0, some session⟩ := by
    simp [onChannel, channel?, hchannels]
  cases action with
  | connect => exact ⟨rfl, rfl, rfl⟩
  | password username password =>
    simp only [act]
    rcases session.tryPassword_cases username password with hact | hact | hact | hact <;> rw [hact]
    · exact ⟨rfl, rfl, rfl⟩
    · exact ⟨rfl, rfl, rfl⟩
    · exact ⟨rfl, rfl, channelLines_onPassword _ _ _⟩
    · exact ⟨rfl, rfl, by simp⟩
  | askMethods username =>
    simp only [act]
    rcases session.askMethods_cases with hact | hact | hact | hact <;> rw [hact]
    · exact ⟨rfl, rfl, rfl⟩
    · exact ⟨rfl, rfl, rfl⟩
    · exact ⟨rfl, rfl, rfl⟩
    · exact ⟨rfl, rfl, channelLines_holdBack _⟩
  | openChannel name request =>
    simp only [act]
    cases hup : session.link.isUp with
    | false =>
      have hdown : session.openChannel name request =
          ⟨.opened .closed none, [], 0, some session⟩ := by
        simp [openChannel, hup]
      rw [hdown]
      exact ⟨rfl, rfl, rfl⟩
    | true =>
      have hearly : session.openChannel name request =
          ⟨.opened .closed none, (session.sever "early eof").1, 0,
            some (session.sever "early eof").2⟩ := by
        simp [openChannel, hup, hauth]
      rw [hearly]
      exact ⟨rfl, rfl, session.channelLines_sever _⟩
  | send | sendExtended | endInput | closeChannel =>
    simp only [act, hnone]
    exact ⟨rfl, rfl, rfl⟩
  | wait ms => exact ⟨rfl, rfl, session.channelLines_elapse ms⟩
  | disconnect | drop => exact ⟨rfl, rfl, session.channelLines_sever _⟩

/-! ## Where a login stands -/

/-- Where the login of a client stands: the pair that is accepted from it, its address, and whether
it is authenticated. -/
structure Login where
  credentials : Credentials
  peer : Client
  authenticated : Bool

/-- Where the login of a session's client stands. -/
def login (session : Session) : Login :=
  ⟨session.handler.credentials, session.handler.peer, session.authenticated⟩

section Login

variable {session next : Session}

/-- Listening does not change where a login stands. -/
@[simp] theorem login_listen (session : Session) (name : String) :
    (session.listen name).2.login = session.login := by
  unfold listen
  split <;> rfl

/-- What arrives on a channel does not change where a login stands. -/
theorem login_arrive (session : Session) (channel : Channel)
    (arrivals : List Exchange.Arrival) :
    (session.arrive channel arrivals).2.login = session.login := by
  unfold arrive
  split <;> rfl

/-- A message on a channel does not change where a login stands, if its effect does not. -/
theorem login_onChannel {name : String} {effect : Session → Channel → List Event × Session}
    (heffect : ∀ channel, (effect session.heard channel).2.login = session.login)
    (h : (session.onChannel name effect).session = some next) :
    next.login = session.login := by
  rcases session.onChannel_cases name effect with hact | ⟨-, hact⟩ | ⟨-, -, channel, hact⟩ <;>
    rw [hact] at h <;> obtain rfl := Option.some.inj h
  · rfl
  · exact login_listen _ _
  · exact (login_listen _ _).trans (heffect channel)

/-- Handing over a channel does not change where a login stands. -/
theorem login_handOver (session : Session) (before : Handover) :
    (session.handOver before).2.login = session.login := by
  unfold handOver
  split <;> rfl

/-- The accepted pair authenticates a client, and nothing else changes where its login stands. -/
theorem login_act {action : Action} (h : (session.act action).session = some next) :
    next.login = session.login ∨
      (action = .password session.handler.credentials.username
          session.handler.credentials.password ∧
        next.login = { session.login with authenticated := true }) := by
  cases action with
  | connect | wait | disconnect =>
    obtain rfl := Option.some.inj h
    exact .inl rfl
  | password username text =>
    simp only [act] at h
    cases hup : session.link.isUp with
    | false =>
      simp only [tryPassword, hup] at h
      obtain rfl := Option.some.inj h
      exact .inl rfl
    | true =>
      cases hauth : session.authenticated with
      | true =>
        simp only [tryPassword, hup, hauth] at h
        obtain rfl := Option.some.inj h
        exact .inl rfl
      | false =>
        rw [tryPassword_eq hup hauth] at h
        split at h <;> obtain rfl := Option.some.inj h
        · rename_i hpair
          obtain ⟨rfl, rfl⟩ := hpair
          exact .inr ⟨rfl, rfl⟩
        · exact .inl rfl
  | askMethods username =>
    simp only [act] at h
    rcases session.askMethods_cases with hact | hact | hact | hact <;>
      rw [hact] at h <;> obtain rfl := Option.some.inj h <;> exact .inl rfl
  | openChannel name request =>
    simp only [act] at h
    rcases session.openChannel_cases name request with hact | hact | ⟨events, -, hact⟩ |
      ⟨-, -, -, hact⟩ <;> rw [hact] at h
    · obtain rfl := Option.some.inj h
      exact .inl rfl
    · obtain rfl := Option.some.inj h
      exact .inl rfl
    · obtain rfl := Option.some.inj h
      exact .inl rfl
    · rw [request_session] at h
      obtain rfl := Option.some.inj h
      refine .inl ?_
      rw [login_listen, login_handOver]
      rfl
  | send name bytes => exact .inl (login_onChannel (fun _ => login_arrive _ _ _) h)
  | sendExtended name bytes => exact .inl (login_onChannel (fun _ => rfl) h)
  | endInput name => exact .inl (login_onChannel (fun _ => login_arrive _ _ _) h)
  | closeChannel name => exact .inl (login_onChannel (fun _ => login_arrive _ _ _) h)
  | drop => cases h

/-- The accepted pair authenticates a client as long as its transport is up. -/
theorem authenticated_of_pair (hup : session.link.isUp = true)
    (h : (session.act (.password session.handler.credentials.username
      session.handler.credentials.password)).session = some next) :
    next.authenticated = true := by
  cases hauth : session.authenticated with
  | true =>
    simp only [act, tryPassword, hup, hauth] at h
    obtain rfl := Option.some.inj h
    exact hauth
  | false =>
    simp only [act, tryPassword_eq hup hauth, and_self, if_true] at h
    obtain rfl := Option.some.inj h
    rfl

end Login

/-- An action of a client that has a session is one on it, and anything else serves no client and
decides on no attempt. -/
theorem perform_cases (credentials : Credentials) (assignment : Assignment) (action : Action)
    (before : Option Session) :
    ((perform credentials assignment action before).Unserved ∧
      ∀ answer, (perform credentials assignment action before).reply ≠ .authenticated answer) ∨
    ∃ session, before = some session ∧
      perform credentials assignment action before = session.act action := by
  have hconnect (old : Option Session) : (connect credentials assignment old).Unserved := by
    refine ⟨rfl, rfl, ?_⟩
    have hevents : (connect credentials assignment old).events =
        [Listener.accepted protocolName assignment.peer] ++
          (((begin credentials assignment).elapse 0).1 ++
            old.toList.flatMap fun session => (session.sever "early eof").1) := rfl
    have haccepted : channelLines [Listener.accepted protocolName assignment.peer] = [] := by
      simp [channelLines, Event.tellsOfChannel, Listener.accepted, Event.opensWith,
        List.isPrefixOf]
    rw [hevents, channelLines_append, haccepted, channelLines_append, channelLines_elapse]
    cases old with
    | none => rfl
    | some session => simp
  cases before with
  | none =>
    cases action with
    | connect => exact .inl ⟨hconnect none, fun answer hreply => by cases hreply⟩
    | _ => exact .inl ⟨⟨rfl, rfl, rfl⟩, fun answer hreply => by cases hreply⟩
  | some session =>
    cases action with
    | connect => exact .inl ⟨hconnect _, fun answer hreply => by cases hreply⟩
    | _ => exact .inr ⟨session, rfl, rfl⟩

/-- A session is that of a new connection, or what an action leaves of the one before. -/
theorem of_perform {credentials : Credentials} {assignment : Assignment} {action : Action}
    {before : Option Session} {next : Session}
    (h : (perform credentials assignment action before).session = some next) :
    (action = .connect ∧ next = begin credentials assignment) ∨
      ∃ session, before = some session ∧ action ≠ .connect ∧
        (session.act action).session = some next := by
  cases before with
  | none =>
    cases action with
    | connect => exact .inl ⟨rfl, (begun_of_connect h).2⟩
    | _ => cases h
  | some session =>
    cases action with
    | connect => exact .inl ⟨rfl, (begun_of_connect h).2⟩
    | _ => exact .inr ⟨session, rfl, by simp, h⟩

/-- A session of a client, given whether it has sent the accepted pair: what the server knows of it
is true, and a client that is not authenticated has no channels, and a worker that serves none. -/
structure Keyed (session : Session) (credentials : Credentials) (peer : Client)
    (loggedIn : Prop) : Prop where
  credentials_eq : session.handler.credentials = credentials
  peer_eq : session.handler.peer = peer
  earned : session.authenticated = true → loggedIn
  kept : session.link.isUp = true → loggedIn → session.authenticated = true
  fresh : session.authenticated = false → session.IsFresh
  unserved : session.authenticated = false →
    session.link.stage = .awaitingChannel ∨ session.link.stage = .left

namespace Keyed

variable {session next : Session} {credentials : Credentials} {peer : Client}
  {loggedIn later : Prop}

/-- On a new connection, nobody has logged in yet. -/
theorem begin (credentials : Credentials) (assignment : Assignment) (h : ¬ later) :
    (Session.begin credentials assignment).Keyed credentials assignment.peer later where
  credentials_eq := rfl
  peer_eq := rfl
  earned := fun hauth => by cases hauth
  kept := fun _ hlater => absurd hlater h
  fresh := fun _ => ⟨rfl, rfl⟩
  unserved := fun _ => .inl rfl

/-- An action keeps the server's knowledge of a client true. -/
theorem act (h : session.Keyed credentials peer loggedIn) {action : Action}
    (hnext : (session.act action).session = some next)
    (hlater : later ↔ action = .password credentials.username credentials.password ∨ loggedIn) :
    next.Keyed credentials peer later := by
  obtain ⟨⟨deeds, passes, hmoves, -, hpasses⟩, hfresh⟩ := effect_act hnext
  rcases login_act hnext with hsame | ⟨haction, hlogin⟩
  -- The login stands where it stood. If the pair was sent all the same, the client had been
  -- authenticated before.
  · obtain ⟨hcredentials, hpeer, hauth⟩ := Login.mk.inj hsame
    have hungranted (hnot : session.authenticated = false) :
        (session.act action).reply.grants = false :=
      (unserved_act hnot (h.fresh hnot).2 action).grants
    refine ⟨hcredentials.trans h.credentials_eq, hpeer.trans h.peer_eq, ?_, ?_, ?_, ?_⟩
    · rw [hauth]
      exact fun hearned => hlater.mpr (.inr (h.earned hearned))
    · intro hnextUp hloggedIn
      rcases hlater.mp hloggedIn with rfl | hbefore
      · rw [← h.credentials_eq] at hnext
        exact authenticated_of_pair (hmoves.isUp_of hnextUp) hnext
      · rw [hauth]
        exact h.kept (hmoves.isUp_of hnextUp) hbefore
    · rw [hauth]
      exact fun hnot => hfresh (h.fresh hnot) (hungranted hnot)
    · rw [hauth]
      intro hnot
      rcases h.unserved hnot with hawaits | hleft
      · exact hmoves.stage_of_awaits ((hpasses (h.fresh hnot)).trans (hungranted hnot)) hawaits
      · exact .inr (hmoves.left_of hleft)
  · obtain ⟨hcredentials, hpeer, hauth⟩ := Login.mk.inj hlogin
    rw [h.credentials_eq] at haction
    refine ⟨hcredentials.trans h.credentials_eq, hpeer.trans h.peer_eq, ?_, ?_, ?_, ?_⟩
    · exact fun _ => hlater.mpr (.inl haction)
    · exact fun _ _ => hauth
    · exact fun hnot => by simp [hauth] at hnot
    · exact fun hnot => by simp [hauth] at hnot

/-- So does the time that the others take. -/
theorem elapse (h : session.Keyed credentials peer loggedIn) (hlater : later ↔ loggedIn)
    (ms : Nat) : (session.elapse ms).2.Keyed credentials peer later :=
  @Keyed.act _ _ _ _ _ _ h (.wait ms) rfl (by simp [hlater])

end Keyed

end Session

/-! ## The guarded server -/

namespace Server

/-- A server that knows the truth about its clients, and has nothing to show that tells of a
channel. -/
structure Guarded (server : Server) (credentials : Credentials) (steps : List Step) : Prop where
  credentials_eq : server.credentials = credentials
  pending : channelLines server.pending = []
  sessions : ∀ client session, server.session? client = some session →
    session.Keyed credentials client (LoggedIn credentials client steps)

section Guarded

variable {server : Server} {credentials : Credentials} {steps : List Step}

/-- A server that nobody has connected to knows the truth about its clients. -/
theorem guarded_start (address : String) (context : Context) :
    (start address context).Guarded context.credentials [] where
  credentials_eq := rfl
  pending := by
    simp [start, announcement, keyGenerated, Listener.listening, channelLines, Event.tellsOfChannel,
      Event.opensWith, List.isPrefixOf]
  sessions := fun client session hsession => by cases hsession

/-- A step leaves the server knowing the truth about its clients. -/
theorem guarded_step (h : server.Guarded credentials steps) (step : Step) :
    (server.step step).2.Guarded credentials (steps ++ [step]) where
  credentials_eq := h.credentials_eq
  pending := rfl
  sessions := by
    intro client session hsession
    by_cases hclient : step.client = client
    · obtain ⟨name, action⟩ := step
      obtain rfl : name = client := hclient
      rw [session?_step_self] at hsession
      rcases Session.of_perform hsession with ⟨rfl, rfl⟩ | ⟨before, hbefore, hconnect, hact⟩
      · have hnew : ¬ LoggedIn credentials name (steps ++ [⟨name, .connect⟩]) := by
          rw [LoggedIn, doneOn_concat]
          simp
        rw [h.credentials_eq]
        exact Session.Keyed.begin credentials (server.assignment name) hnew
      · refine (h.sessions name before hbefore).act hact ?_
        -- A client that still has its session has not dropped it.
        have hdrop : action ≠ .drop := by
          rintro rfl
          cases hact
        rw [LoggedIn, doneOn_concat]
        simp [hconnect, hdrop, LoggedIn]
    -- A step of another client adds nothing to what this one has done.
    · rw [session?_step_other hclient] at hsession
      obtain ⟨before, hbefore, rfl⟩ := Option.map_eq_some_iff.mp hsession
      refine (h.sessions client before hbefore).elapse ?_ _
      rw [LoggedIn, doneOn_concat]
      have hother (action : Action) : step ≠ ⟨client, action⟩ := by
        rintro rfl
        exact hclient rfl
      simp [hclient, hother, LoggedIn]

/-- So does any course of steps. -/
theorem guarded_steps (h : server.Guarded credentials steps) (more : List Step) :
    (server.steps more).2.Guarded credentials (steps ++ more) := by
  induction more generalizing server steps with
  | nil => simpa [Server.steps] using h
  | cons first rest ih => simpa [Server.steps] using ih (guarded_step h first)

/-- What a step comes to for its client: a client that has no session, or connects, is not served
and learns nothing of an attempt, and any other one acts on its session. -/
theorem outcome_cases (server : Server) (step : Step) :
    ((server.outcome step).Unserved ∧
      ∀ answer, (server.outcome step).reply ≠ .authenticated answer) ∨
    ∃ session, server.session? step.client = some session ∧
      server.outcome step = session.act step.action :=
  Session.perform_cases _ _ _ _

/-- What an answer tells of channels comes of what its own client does. -/
theorem channelLines_step (h : server.Guarded credentials steps) (step : Step) :
    channelLines (server.step step).1.events = channelLines (server.outcome step).events := by
  have hothers : channelLines (((server.others step.client).map fun entry =>
      (entry.1, entry.2.elapse (server.outcome step).duration)).flatMap fun entry => entry.2.1) =
        [] := by
    rw [List.flatMap_map, channelLines, List.filter_flatMap]
    exact List.flatMap_eq_nil_iff.mpr fun entry _ => entry.2.channelLines_elapse _
  have hevents : (server.step step).1.events = server.pending ++ (server.outcome step).events ++
      ((server.others step.client).map fun entry =>
        (entry.1, entry.2.elapse (server.outcome step).duration)).flatMap fun entry => entry.2.1 :=
    rfl
  rw [hevents, channelLines_append, channelLines_append, h.pending, hothers, List.nil_append,
    List.append_nil]

/-- A channel that is told to have been opened names the client of the step. -/
theorem opened_of_mem_outcome (h : server.Guarded credentials steps) {step : Step} {line : Event}
    (hline : line ∈ (server.outcome step).events) (hmessage : line.message = "Channel opened") :
    line.fields.head? = some (.plain "peer" step.client) := by
  rcases server.outcome_cases step with ⟨hunserved, -⟩ | ⟨session, hsession, hact⟩
  · exact absurd hmessage ((channelLines_eq_nil_iff.mp hunserved.lines).2 line hline)
  · rw [hact] at hline
    rw [← (h.sessions _ _ hsession).peer_eq]
    exact Session.opened_of_mem_act hline hmessage

/-- A client that has not sent the accepted pair is not served. -/
theorem unserved_outcome (h : server.Guarded credentials steps) {step : Step}
    (hnot : ¬ LoggedIn credentials step.client steps) : (server.outcome step).Unserved := by
  rcases server.outcome_cases step with ⟨hunserved, -⟩ | ⟨session, hsession, hact⟩
  · exact hunserved
  · have hkeyed := h.sessions _ _ hsession
    have hauth : session.authenticated = false :=
      Bool.eq_false_iff.mpr fun hearned => hnot (hkeyed.earned hearned)
    rw [hact]
    exact Session.unserved_act hauth (hkeyed.fresh hauth).2 step.action

/-- Whatever failed, the client may go on with passwords, and with nothing else. -/
theorem remaining_of_step {step : Step} {remaining : List Method}
    (h : (server.step step).1.reply = .authenticated (.failure remaining)) :
    remaining = [.password] := by
  have hreply : (server.outcome step).reply = .authenticated (.failure remaining) := h
  rcases server.outcome_cases step with ⟨-, hnone⟩ | ⟨session, -, hact⟩
  · exact absurd hreply (hnone _)
  · rw [hact] at hreply
    exact Session.remaining_of_failure hreply

end Guarded

/-- A client that connects to a server that waits has a session that is up. -/
theorem session_of_connect {server : Server} (hwait : 0 < server.wait) (client : Client) :
    (server.step ⟨client, .connect⟩).2.session? client =
      some (Session.begin server.credentials (server.assignment client)) := by
  have hconnect : server.outcome ⟨client, .connect⟩ =
      Session.connect server.credentials (server.assignment client) (server.session? client) := by
    unfold outcome
    cases server.session? client <;> rfl
  refine (session?_step_self server ⟨client, .connect⟩).trans ?_
  rw [hconnect]
  exact connect_of_pos hwait _ _

end Server

/-- A client is served only after it has sent the accepted pair on the connection that it has. After
any course of steps, whatever the next one is: only lines that come of it tell of a channel, and
they name its client; a client that has not sent the pair is sent nothing and granted nothing, and
no such line comes of what it does; and whatever fails offers passwords and nothing else. The server
holds no channel for such a client, and its worker serves none. As long as the transport is up,
exactly those who have sent the pair are authenticated, and an attempt of anybody else succeeds
exactly with that pair. What the client has tried before, and what others have sent, makes no
difference. And a transport that is up is there to be had: on a server that waits for a channel at
all, whoever connects has one. -/
theorem service_needs_login (address : String) (context : Context) (steps : List Step) :
    let server := ((Server.start address context).steps steps).2
    let loggedIn := fun client => LoggedIn context.credentials client steps
    (∀ step,
      let answer := (server.step step).1
      channelLines answer.events = channelLines (server.outcome step).events ∧
      (∀ line ∈ answer.events, line.message = "Channel opened" →
        line.fields.head? = some (.plain "peer" step.client)) ∧
      (¬ loggedIn step.client →
        answer.reply.octets = [] ∧ answer.reply.grants = false ∧
          channelLines answer.events = []) ∧
      ∀ remaining, answer.reply = .authenticated (.failure remaining) →
        remaining = [.password]) ∧
    (∀ client session, server.session? client = some session →
      (¬ loggedIn client →
        session.authenticated = false ∧ session.IsFresh ∧
          (session.link.stage = .awaitingChannel ∨ session.link.stage = .left)) ∧
      (session.link.isUp = true →
        (session.authenticated = true ↔ loggedIn client) ∧
        (¬ loggedIn client → ∀ username password,
          (server.step ⟨client, .password username password⟩).1.reply =
            .authenticated (if username = context.credentials.username ∧
                password = context.credentials.password then .success
              else .failure [.password])))) ∧
    (0 < context.channelOpenTimeout → ∀ client, ∃ session,
      (server.step ⟨client, .connect⟩).2.session? client = some session ∧
        session.link.isUp = true ∧ session.authenticated = false) := by
  intro server loggedIn
  have hguarded : server.Guarded context.credentials steps :=
    Server.guarded_steps (Server.guarded_start address context) steps
  refine ⟨?_, ?_, ?_⟩
  · intro step answer
    have hlines := Server.channelLines_step hguarded step
    refine ⟨hlines, ?_, ?_, fun remaining => Server.remaining_of_step⟩
    · intro line hline hmessage
      have hmem : line ∈ channelLines answer.events :=
        List.mem_filter.mpr ⟨hline, by simp [Event.tellsOfChannel, hmessage]⟩
      rw [hlines] at hmem
      exact Server.opened_of_mem_outcome hguarded (List.mem_filter.mp hmem).1 hmessage
    · intro hnot
      have hunserved := Server.unserved_outcome hguarded hnot
      exact ⟨hunserved.octets, hunserved.grants, hlines.trans hunserved.lines⟩
  · intro client session hsession
    have hkeyed := hguarded.sessions client session hsession
    have hauth (hnot : ¬ loggedIn client) : session.authenticated = false :=
      Bool.eq_false_iff.mpr fun hearned => hnot (hkeyed.earned hearned)
    refine ⟨fun hnot => ⟨hauth hnot, hkeyed.fresh (hauth hnot), hkeyed.unserved (hauth hnot)⟩, ?_⟩
    intro hup
    refine ⟨⟨hkeyed.earned, hkeyed.kept hup⟩, ?_⟩
    intro hnot username password
    have hreply : (server.step ⟨client, .password username password⟩).1.reply =
        (Session.perform server.credentials (server.assignment client)
          (.password username password) (server.session? client)).reply := rfl
    have htry : Session.perform server.credentials (server.assignment client)
        (.password username password) (some session) = session.tryPassword username password := rfl
    rw [hreply, hsession, htry, Session.tryPassword_eq hup (hauth hnot), hkeyed.credentials_eq]
    split <;> rfl
  · intro hwait client
    have hwaits : server.wait = context.channelOpenTimeout := Server.wait_steps _ steps
    exact ⟨_, Server.session_of_connect (hwaits ▸ hwait) client, rfl, rfl⟩

end Ssh

end PongFixture
