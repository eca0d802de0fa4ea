import PongFixture.Proofs.Ssh.Clock
import PongFixture.Ssh.Server

/-!
# The life of a connection

A life is all that a client does on one connection, from the end of the version exchange on, with
what each action came to. Every session of a server has one (`sessions_live`): what the other
clients do is a wait for this one.

Whatever an action does, to the link it is made of a few moves (`Moves`): reports of the handler,
messages that are heard, a channel passed on, arrivals, the end of the transport, and time. What
every move keeps, a whole life keeps.
-/

set_option autoImplicit false

namespace PongFixture.Ssh

/-! ## Lives -/

/-- What a client has done on a connection, with what it came to. -/
abbrev History := List (Action × Outcome)

/-- The sessions that a connection may reach, each with what has led there. -/
inductive Life (credentials : Credentials) (assignment : Assignment) : History → Session → Prop
  | connected {old : Option Session} {session : Session}
      (h : (Session.connect credentials assignment old).session = some session) :
      Life credentials assignment [] session
  | acted {history : History} {session next : Session} (action : Action)
      (hlife : Life credentials assignment history session)
      (h : (session.act action).session = some next) :
      Life credentials assignment (history ++ [(action, session.act action)]) next

/-- How long a history has taken, in milliseconds. -/
def time : History → Nat
  | [] => 0
  | (_, outcome) :: history => outcome.duration + time history

/-- Whether a reply grants a channel. -/
def Reply.grants : Reply → Bool
  | .opened .granted _ => true
  | _ => false

/-- Whether a session channel has been accepted. -/
def Accepted (history : History) : Prop :=
  ∃ name outcome, (Action.openChannel name (.decided .session), outcome) ∈ history ∧
    outcome.reply.grants = true

/-! ## The moves of a link -/

/-- What the handler of a connection reports. -/
def handlerReports : List String :=
  ["Password accepted", "Password rejected", "Channel opened", "Channel open rejected"]

/-- What actions do to a link: the deeds, how long it takes, and whether a channel is passed on. -/
inductive Moves : Link → List Deed → Nat → Bool → Link → Prop
  | told (link : Link) {events : List Event}
      (h : ∀ line ∈ events, line.message ∈ handlerReports) :
      Moves link (events.map .logged) 0 false link
  | heard (link : Link) : Moves link [] 0 false link.heard
  | passed (link : Link) (sink : Exchange.Sink) :
      Moves link (link.happen (.channelPassed sink)).1 0 true (link.happen (.channelPassed sink)).2
  | arrived (link : Link) (arrivals : List Exchange.Arrival) :
      Moves link (link.happen (.arrived arrivals)).1 0 false (link.happen (.arrived arrivals)).2
  | severed (link : Link) (error : Option String) :
      Moves link (link.sever error).1 0 false (link.sever error).2
  | elapsed (link : Link) (ms : Nat) :
      Moves link (link.elapse ms).1 ms false (link.elapse ms).2
  | both {first second third : Link} {deeds others : List Deed} {ms more : Nat}
      {passes passesToo : Bool} (h : Moves first deeds ms passes second)
      (hthen : Moves second others more passesToo third) :
      Moves first (deeds ++ others) (ms + more) (passes || passesToo) third

/-- Deeds that report events have these events. -/
@[simp] theorem eventsOf_map_logged (events : List Event) :
    eventsOf (events.map .logged) = events := by
  rw [eventsOf, List.filterMap_map]
  exact List.filterMap_some

namespace Moves

/-- Nothing is a move. -/
theorem still (link : Link) : Moves link [] 0 false link := by
  have hnone : ∀ line ∈ ([] : List Event), line.message ∈ handlerReports := by simp
  exact told link hnone

section Kept

variable {link next : Link} {deeds : List Deed} {ms : Nat} {passes : Bool}

/-- What a worker knows of its connection stays as it is. -/
theorem assignment_eq (h : Moves link deeds ms passes next) :
    next.assignment = link.assignment := by
  induction h with
  | told | heard | passed | arrived | severed => rfl
  | elapsed link ms => exact link.assignment_elapse ms
  | both h hthen ih ihthen => exact ihthen.trans ih

/-- The age of a link grows with the time that passes, and with nothing else. -/
theorem age_eq (h : Moves link deeds ms passes next) : next.age = link.age + ms := by
  induction h with
  | told | heard | passed | arrived | severed => rfl
  | elapsed link ms => exact link.age_elapse ms
  | both h hthen ih ihthen => rw [ihthen, ih, Nat.add_assoc]

/-- No move changes the patience of a worker. -/
theorem patience_eq (h : Moves link deeds ms passes next) : next.patience = link.patience :=
  congrArg (fun assignment => 1000 * assignment.wait) h.assignment_eq

/-- A link never goes back to the version exchange. -/
theorem connecting_of (h : Moves link deeds ms passes next) (hnext : next.stage = .connecting) :
    link.stage = .connecting := by
  induction h with
  | told | heard => exact hnext
  | passed | arrived => exact connecting_of_step hnext
  | severed link error =>
    by_cases hstage : link.stage = .connecting
    · exact hstage
    · rw [Link.sever_eq hstage] at hnext
      cases hnext
  | elapsed link ms =>
    rcases link.stage_elapse ms with ⟨hlater, -⟩ | hleft
    · rw [hlater] at hnext
      exact hnext
    · cases hleft.symm.trans hnext
  | both h hthen ih ihthen => exact ih (ihthen hnext)

/-- What has ended stays so. -/
theorem left_of (h : Moves link deeds ms passes next) (hlink : link.stage = .left) :
    next.stage = .left := by
  induction h with
  | told | heard => exact hlink
  | passed link sink => simp [Link.happen, hlink]
  | arrived link arrivals => simp [Link.happen, hlink]
  | severed link error => rw [Link.sever_eq (by simp [hlink])]; rfl
  | elapsed link ms => rw [Link.elapse_of_left hlink]; exact hlink
  | both h hthen ih ihthen => exact ihthen (ih hlink)

/-- A worker that awaits a channel has done so before, none has been passed on, and it has kept its
patience. -/
theorem awaits_of (h : Moves link deeds ms passes next) (hnext : next.stage = .awaitingChannel) :
    link.stage = .awaitingChannel ∧ passes = false ∧
      (link.age < link.patience → next.age < next.patience) := by
  induction h with
  | told | heard => exact ⟨hnext, rfl, id⟩
  | passed link sink =>
    rcases awaits_of_step hnext with hstage | hsetup
    · rcases stage_afterActs link.assignment (Exchange.greet banner sink).1
        (Exchange.greet banner sink).2 with ⟨served, hserves⟩ | hleft
      · simp [Link.happen, hstage, Stage.step, hserves] at hnext
      · simp [Link.happen, hstage, Stage.step, hleft] at hnext
    · cases hsetup
  | arrived link arrivals =>
    rcases awaits_of_step hnext with hstage | hsetup
    · exact ⟨hstage, rfl, id⟩
    · cases hsetup
  | severed link error =>
    by_cases hstage : link.stage = .connecting
    · rw [Link.sever_of_connecting hstage, hstage] at hnext
      cases hnext
    · rw [Link.sever_eq hstage] at hnext
      cases hnext
  | elapsed link ms =>
    rcases link.stage_elapse ms with ⟨hlater, hpatience⟩ | hleft
    · rw [hlater] at hnext ⊢
      exact ⟨hnext, rfl, fun _ => hpatience hnext⟩
    · cases hleft.symm.trans hnext
  | both h hthen ih ihthen =>
    obtain ⟨hsecond, hnone, hkept⟩ := ihthen hnext
    obtain ⟨hfirst, hnoneBefore, hkeptBefore⟩ := ih hsecond
    exact ⟨hfirst, by rw [hnone, hnoneBefore]; rfl, fun hage => hkept (hkeptBefore hage)⟩

/-- As long as no channel is passed on a worker awaits one, or it leaves. -/
theorem stage_of_awaits (h : Moves link deeds ms passes next) (hpasses : passes = false)
    (hlink : link.stage = .awaitingChannel) :
    next.stage = .awaitingChannel ∨ next.stage = .left := by
  induction h with
  | told | heard => exact .inl hlink
  | passed => cases hpasses
  | arrived link arrivals => exact .inl (by simp [Link.happen, hlink, Stage.step])
  | severed link error => exact .inr (by rw [Link.sever_eq (by simp [hlink])]; rfl)
  | elapsed link ms =>
    rcases link.stage_elapse ms with ⟨hlater, -⟩ | hleft
    · exact .inl (by rw [hlater]; exact hlink)
    · exact .inr hleft
  | both h hthen ih ihthen =>
    obtain ⟨hbefore, hafter⟩ := Bool.or_eq_false_iff.mp hpasses
    rcases ih hbefore hlink with hawaits | hleft
    · exact ihthen hafter hawaits
    · exact .inr (hthen.left_of hleft)

/-- On a transport that is up no farewell has been said. -/
theorem farewell_of (h : Moves link deeds ms passes next) (hlink : link.farewell = none)
    (hnext : next.stage ≠ .left) : next.farewell = none := by
  induction h with
  | told | heard | severed => exact hlink
  | passed link sink =>
    simp only [Link.happen, hlink]
    exact quiet_of_stays hnext
  | arrived link arrivals =>
    simp only [Link.happen, hlink]
    exact quiet_of_stays hnext
  | elapsed link ms =>
    rcases link.stage_elapse ms with ⟨hlater, -⟩ | hleft
    · rw [hlater]
      exact hlink
    · exact absurd hleft hnext
  | both h hthen ih ihthen =>
    exact ihthen (ih hlink fun hleft => hnext (hthen.left_of hleft)) hnext

/-- A lost patience is told of when it is due alone, and then the worker has left. -/
theorem tired_of_mem {line : Event} (h : Moves link deeds ms passes next)
    (hline : line ∈ eventsOf deeds) (hmessage : line.message = "No channel opened in time") :
    link.stage = .awaitingChannel ∧ link.patience ≤ link.age + ms ∧ next.stage = .left := by
  induction h with
  | told link hreports =>
    rw [eventsOf_map_logged] at hline
    have hreport := hreports line hline
    simp [hmessage, handlerReports] at hreport
  | heard => cases hline
  | passed | arrived => cases (tired_of_mem_step hline hmessage).2
  | severed => exact absurd hmessage (Link.message_sever hline)
  | elapsed => exact Link.tired_of_mem_elapse hline hmessage
  | both h hthen ih ihthen =>
    rw [eventsOf_append, List.mem_append] at hline
    rcases hline with hbefore | hafter
    · obtain ⟨hstage, hdue, hleft⟩ := ih hbefore
      exact ⟨hstage, by omega, hthen.left_of hleft⟩
    · -- The second move finds a worker that awaits a channel, and so does the first.
      obtain ⟨hstage, hdue, hleft⟩ := ihthen hafter
      rw [h.age_eq, h.patience_eq] at hdue
      exact ⟨(h.awaits_of hstage).1, by omega, hleft⟩

/-- A worker awaits a channel as long as its transport is up and no channel is passed on. -/
theorem awaits (h : Moves link deeds ms passes next) (hpasses : passes = false)
    (hlink : link.Awaits) (hup : next.isUp = true) : next.Awaits := by
  have hnext := Link.isUp_iff.mp hup
  have hstage := (h.stage_of_awaits hpasses hlink.stage).resolve_right hnext
  exact ⟨hstage, (h.awaits_of hstage).2.2 hlink.age, h.farewell_of hlink.farewell hnext⟩

end Kept

end Moves

/-! ## What an action does -/

namespace Session

/-- Whether no channel has been opened yet. -/
def IsFresh (session : Session) : Prop :=
  session.handler.handover = .new ∧ session.channels = []

/-- What an action does to a session: a few moves of its link, by which the first channel that is
granted is passed on. -/
structure Effect (session : Session) (outcome : Outcome) (next : Session) : Prop where
  moves : ∃ deeds passes, Moves session.link deeds outcome.duration passes next.link ∧
    outcome.events = eventsOf deeds ∧ (session.IsFresh → passes = outcome.reply.grants)
  fresh : session.IsFresh → outcome.reply.grants = false → next.IsFresh

/-- Hearing a message first belongs to what an action does. -/
theorem Effect.after_heard {session next : Session} {outcome : Outcome}
    (h : session.heard.Effect outcome next) : session.Effect outcome next := by
  obtain ⟨⟨deeds, passes, hmoves, hevents, hpasses⟩, hfresh⟩ := h
  have hboth := Moves.both (.heard session.link) hmoves
  rw [Nat.zero_add] at hboth
  exact ⟨⟨deeds, passes, hboth, hevents, hpasses⟩, hfresh⟩

section Effects

variable {session next : Session} {outcome : Outcome} {deeds : List Deed}

/-- An action that grants nothing and leaves the handler alone. -/
theorem effect_of_moves (h : Moves session.link deeds outcome.duration false next.link)
    (hevents : outcome.events = eventsOf deeds) (hreply : outcome.reply.grants = false)
    (hhandler : next.handler = session.handler)
    (hchannels : session.channels = [] → next.channels = []) : session.Effect outcome next where
  moves := ⟨deeds, false, h, hevents, fun _ => hreply.symm⟩
  fresh := fun hfresh _ => ⟨hhandler ▸ hfresh.1, hchannels hfresh.2⟩

/-- An action does what its outcome does, once that is known. -/
theorem Effect.of_eq {reply : Reply} {events : List Event} {ms : Nat} {after : Session}
    (hact : outcome = ⟨reply, events, ms, some after⟩) (h : outcome.session = some next)
    (heffect : session.Effect ⟨reply, events, ms, some after⟩ after) :
    session.Effect outcome next := by
  subst hact
  obtain rfl := Option.some.inj h
  exact heffect

/-- Where there are no channels, the deeds of the worker make none. -/
theorem channels_absorb (h : session.channels = []) (done : List Deed × Link) :
    (session.absorb done).2.channels = [] := by
  simp [absorb, h]

/-- Listening does nothing to the link. -/
@[simp] theorem link_listen (session : Session) (name : String) :
    (session.listen name).2.link = session.link := by
  unfold listen
  split <;> rfl

/-- Listening does nothing to the handler. -/
@[simp] theorem handler_listen (session : Session) (name : String) :
    (session.listen name).2.handler = session.handler := by
  unfold listen
  split <;> rfl

/-- What is reported of a password is a report of the handler. -/
theorem mem_onPassword {handler : Handler} {username password : String} {line : Event}
    (h : line ∈ (handler.onPassword username password).2) : line.message ∈ handlerReports := by
  unfold Handler.onPassword at h
  split at h <;> obtain rfl := List.mem_singleton.mp h <;> simp [Handler.report, handlerReports]

/-- What is reported of a question for a channel is a report of the handler. -/
theorem mem_onOpen {handler : Handler} {kind : ChannelKind} {id : ChannelId} {line : Event}
    (h : line ∈ (handler.onOpen kind id).2.1) : line.message ∈ handlerReports := by
  unfold Handler.onOpen at h
  split at h <;> obtain rfl := List.mem_singleton.mp h <;> simp [Handler.report, handlerReports]

/-- The moves by which an answer is held back. -/
theorem moves_holdBack (session : Session) :
    ∃ deeds, Moves session.link deeds (rejectionDelay + settlingTime) false
        session.holdBack.2.link ∧ session.holdBack.1 = eventsOf deeds := by
  have hfirst := Moves.elapsed session.link rejectionDelay
  have hsecond := Moves.elapsed (session.link.elapse rejectionDelay).2.heard settlingTime
  refine ⟨_, .both hfirst (.both (.heard _) hsecond), ?_⟩
  rw [eventsOf_append, List.nil_append]
  rfl

/-- Holding back an answer makes no channels. -/
theorem channels_holdBack (h : session.channels = []) : session.holdBack.2.channels = [] :=
  channels_absorb (channels_absorb h _) _

/-- A session whose client tries a password. -/
def attempting (session : Session) : Session := { session.heard with attempted := true }

/-- What the attempt of a password comes to: the transport is not up, the client is authenticated
already or from now on, or the answer to a wrong password is held back. -/
theorem tryPassword_cases (session : Session) (username password : String) :
    session.tryPassword username password = ⟨.authenticated .closed, [], 0, some session⟩ ∨
    session.tryPassword username password =
      ⟨.authenticated .unanswered, [], 0, some session.heard⟩ ∨
    session.tryPassword username password =
      ⟨.authenticated .success, (session.handler.onPassword username password).2, 0,
        some { session.attempting with authenticated := true }⟩ ∨
    session.tryPassword username password =
      ⟨.authenticated (.failure methods),
        (session.handler.onPassword username password).2 ++ session.attempting.holdBack.1,
        rejectionDelay + settlingTime, some session.attempting.holdBack.2⟩ := by
  cases hup : session.link.isUp with
  | false => exact .inl (by simp [tryPassword, hup])
  | true =>
    cases hauth : session.authenticated with
    | true => exact .inr (.inl (by simp [tryPassword, hup, hauth]))
    | false =>
      cases hjudge : session.handler.credentials.judge username password with
      | successful =>
        refine .inr (.inr (.inl ?_))
        simp [tryPassword, hup, hauth, Handler.onPassword, hjudge, heard, attempting]
      | failed =>
        refine .inr (.inr (.inr ?_))
        simp [tryPassword, hup, hauth, Handler.onPassword, hjudge, heard, attempting]

/-- What a question for the ways to authenticate comes to: the transport is not up, the client is
authenticated already, it is the first attempt, or the answer is held back. -/
theorem askMethods_cases (session : Session) :
    session.askMethods = ⟨.authenticated .closed, [], 0, some session⟩ ∨
    session.askMethods = ⟨.authenticated .unanswered, [], 0, some session.heard⟩ ∨
    session.askMethods =
      ⟨.authenticated (.failure methods), [], firstRejectionDelay, some session.attempting⟩ ∨
    session.askMethods =
      ⟨.authenticated (.failure methods), session.heard.holdBack.1,
        rejectionDelay + settlingTime, some session.heard.holdBack.2⟩ := by
  cases hup : session.link.isUp with
  | false => exact .inl (by simp [askMethods, hup])
  | true =>
    cases hauth : session.authenticated with
    | true => exact .inr (.inl (by simp [askMethods, hup, hauth]))
    | false =>
      cases hattempted : session.attempted with
      | false => exact .inr (.inr (.inl (by simp [askMethods, hup, hauth, hattempted, attempting])))
      | true => exact .inr (.inr (.inr (by simp [askMethods, hup, hauth, hattempted])))

/-- A session in which a session channel has just been opened. -/
def opening (session : Session) (name : String) : Session :=
  { session with
    handler := (session.handler.onOpen .session session.opened).2.2
    channels := .new name session.opened :: session.channels
    opened := session.opened + 1 }

/-- A session channel is opened, and handed over if it is the first. -/
theorem request_session (session : Session) (name : String) :
    session.request name .session =
      ⟨.opened .granted (some
          (((session.opening name).handOver session.handler.handover).2.listen name).1),
        (session.handler.onOpen .session session.opened).2.1 ++
          ((session.opening name).handOver session.handler.handover).1,
        0, some (((session.opening name).handOver session.handler.handover).2.listen name).2⟩ :=
  rfl

/-- What a question for a channel comes to: the transport is not up, the client asks too early, its
request is refused, or it is one for a session channel, which is opened. -/
theorem openChannel_cases (session : Session) (name : String) (request : OpenRequest) :
    session.openChannel name request = ⟨.opened .closed none, [], 0, some session⟩ ∨
    session.openChannel name request =
      ⟨.opened .closed none, (session.sever "early eof").1, 0,
        some (session.sever "early eof").2⟩ ∨
    (∃ events, (∀ line ∈ events, line.message ∈ handlerReports) ∧
      session.openChannel name request =
        ⟨.opened (.failure .administrativelyProhibited) none, events, 0, some session.heard⟩) ∨
    (session.link.isUp = true ∧ session.authenticated = true ∧ request = .decided .session ∧
      session.openChannel name request = session.heard.request name .session) := by
  cases hup : session.link.isUp with
  | false => exact .inl (by simp [openChannel, hup])
  | true =>
    cases hauth : session.authenticated with
    | false => exact .inr (.inl (by simp [openChannel, hup, hauth]))
    | true =>
      cases request with
      | streamlocal => exact .inr (.inr (.inl ⟨[], by simp, by simp [openChannel, hup, hauth]⟩))
      | decided kind =>
        have hpolicy : session.openChannel name (.decided kind) =
            session.heard.request name kind := by
          simp [openChannel, hup, hauth]
        rw [hpolicy]
        cases kind with
        | session => exact .inr (.inr (.inr ⟨rfl, rfl, rfl, rfl⟩))
        | x11 =>
          refine .inr (.inr (.inl ⟨(session.handler.onOpen .x11 session.opened).2.1, ?_, rfl⟩))
          exact fun line => mem_onOpen
        | directTcpip =>
          refine .inr (.inr (.inl
            ⟨(session.handler.onOpen .directTcpip session.opened).2.1, ?_, rfl⟩))
          exact fun line => mem_onOpen

/-- What a message on a channel comes to: the client has no such channel, the transport is not up,
or the message takes effect. -/
theorem onChannel_cases (session : Session) (name : String)
    (effect : Session → Channel → List Event × Session) :
    session.onChannel name effect = ⟨.noChannel, [], 0, some session⟩ ∨
    (session.channels ≠ [] ∧ session.onChannel name effect =
      ⟨.sent false (session.listen name).1, [], 0, some (session.listen name).2⟩) ∨
    (session.channels ≠ [] ∧ session.link.isUp = true ∧
      ∃ channel, session.onChannel name effect =
        ⟨.sent true ((effect session.heard channel).2.listen name).1,
          (effect session.heard channel).1, 0,
          some ((effect session.heard channel).2.listen name).2⟩) := by
  cases hchannel : session.channel? name with
  | none => exact .inl (by simp [onChannel, hchannel])
  | some channel =>
    have hsome : session.channels ≠ [] := by
      intro hnone
      simp [channel?, hnone] at hchannel
    cases hup : session.link.isUp with
    | false => exact .inr (.inl ⟨hsome, by simp [onChannel, hchannel, hup]⟩)
    | true => exact .inr (.inr ⟨hsome, rfl, channel, by simp [onChannel, hchannel, hup]⟩)

/-! ## What an action does to the link -/

/-- The effect of trying a password. -/
theorem effect_tryPassword {username password : String}
    (h : (session.tryPassword username password).session = some next) :
    session.Effect (session.tryPassword username password) next := by
  have hreports : ∀ line ∈ (session.handler.onPassword username password).2,
      line.message ∈ handlerReports := fun line => mem_onPassword
  rcases session.tryPassword_cases username password with hact | hact | hact | hact
  · exact .of_eq hact h (effect_of_moves (.still _) rfl rfl rfl id)
  · exact .of_eq hact h (effect_of_moves (.heard _) rfl rfl rfl id)
  · exact .of_eq hact h (effect_of_moves (.both (.heard _) (.told _ hreports)) (by simp) rfl rfl id)
  · obtain ⟨deeds, hmoves, hevents⟩ := moves_holdBack session.attempting
    refine .of_eq hact h ?_
    refine effect_of_moves (.both (.heard _) (.both (.told _ hreports) hmoves)) ?_ rfl rfl ?_
    · simp [hevents]
    · intro hnone
      have hattempting : session.attempting.channels = [] := hnone
      exact channels_holdBack hattempting

/-- The effect of asking for the ways to authenticate. -/
theorem effect_askMethods (h : session.askMethods.session = some next) :
    session.Effect session.askMethods next := by
  rcases session.askMethods_cases with hact | hact | hact | hact
  · exact .of_eq hact h (effect_of_moves (.still _) rfl rfl rfl id)
  · exact .of_eq hact h (effect_of_moves (.heard _) rfl rfl rfl id)
  · exact .of_eq hact h (effect_of_moves (.heard _) rfl rfl rfl id)
  · obtain ⟨deeds, hmoves, hevents⟩ := moves_holdBack session.heard
    refine .of_eq hact h ?_
    refine effect_of_moves (.both (.heard _) hmoves) hevents rfl rfl ?_
    intro hnone
    have hheard : session.heard.channels = [] := hnone
    exact channels_holdBack hheard

/-- The moves by which a channel is handed over. -/
theorem moves_handOver (session : Session) (before : Handover) :
    ∃ deeds passes, Moves session.link deeds 0 passes (session.handOver before).2.link ∧
      (session.handOver before).1 = eventsOf deeds ∧
      passes = !decide (before.delivered = session.handler.handover.delivered) := by
  by_cases hsame : before.delivered = session.handler.handover.delivered
  · rw [handOver, if_pos hsame]
    exact ⟨[], false, .still _, rfl, by simp [hsame]⟩
  · rw [handOver, if_neg hsame]
    exact ⟨_, true, .passed _ _, rfl, by simp [hsame]⟩

/-- A session channel that is opened is passed on if it is the first. -/
theorem effect_request_session {name : String}
    (h : (session.request name .session).session = some next) :
    session.Effect (session.request name .session) next := by
  rw [request_session] at h ⊢
  obtain rfl := Option.some.inj h
  have hreports : ∀ line ∈ (session.handler.onOpen .session session.opened).2.1,
      line.message ∈ handlerReports := fun line => mem_onOpen
  obtain ⟨deeds, passes, hmoves, hevents, hpasses⟩ :=
    moves_handOver (session.opening name) session.handler.handover
  have hboth := Moves.both (.told session.link hreports) hmoves
  rw [← link_listen ((session.opening name).handOver _).2 name] at hboth
  refine ⟨⟨_, _, hboth, ?_, ?_⟩, ?_⟩
  · simp [hevents]
  · intro hfresh
    have hdelivered : (session.opening name).handler.handover.delivered =
        some session.opened := by
      simp [opening, Handler.onOpen, admission, hfresh.1, Handover.pass, Handover.new]
    rw [Bool.false_or, hpasses, hdelivered, hfresh.1]
    rfl
  · intro _ hreply
    cases hreply

/-- The effect of asking for a channel. -/
theorem effect_openChannel {name : String} {request : OpenRequest}
    (h : (session.openChannel name request).session = some next) :
    session.Effect (session.openChannel name request) next := by
  rcases session.openChannel_cases name request with hact | hact | ⟨events, hreports, hact⟩ |
    ⟨-, -, -, hact⟩
  · exact .of_eq hact h (effect_of_moves (.still _) rfl rfl rfl id)
  · refine .of_eq hact h ?_
    exact effect_of_moves (.severed _ _) rfl rfl rfl fun hnone => channels_absorb hnone _
  · exact .of_eq hact h (effect_of_moves (.both (.heard _) (.told _ hreports)) (by simp) rfl rfl id)
  · rw [hact] at h ⊢
    exact (effect_request_session h).after_heard

/-- What a message on a channel does, if its effect on a session whose transport is up is a move. -/
theorem effect_onChannel {name : String} {effect : Session → Channel → List Event × Session}
    (hmoves : ∀ session channel, ∃ deeds,
      Moves session.link deeds 0 false (effect session channel).2.link ∧
        (effect session channel).1 = eventsOf deeds)
    (hhandler : ∀ session channel, (effect session channel).2.handler = session.handler)
    (h : (session.onChannel name effect).session = some next) :
    session.Effect (session.onChannel name effect) next := by
  rcases session.onChannel_cases name effect with hact | ⟨hsome, hact⟩ |
    ⟨hsome, -, channel, hact⟩
  · exact .of_eq hact h (effect_of_moves (.still _) rfl rfl rfl id)
  · have hstill : Moves session.link [] 0 false (session.listen name).2.link := by
      rw [link_listen]
      exact .still _
    refine .of_eq hact h ?_
    exact effect_of_moves hstill rfl rfl (handler_listen _ _) fun hnone => absurd hnone hsome
  · obtain ⟨deeds, hdone, hevents⟩ := hmoves session.heard channel
    have hboth : Moves session.link deeds 0 false
        ((effect session.heard channel).2.listen name).2.link := by
      rw [link_listen]
      exact .both (.heard _) hdone
    refine .of_eq hact h ?_
    refine effect_of_moves hboth hevents rfl ?_ ?_
    · rw [handler_listen]
      exact hhandler session.heard channel
    · intro hnone
      exact absurd hnone hsome

/-- The moves by which something arrives on a channel. -/
theorem moves_arrive (session : Session) (channel : Channel) (arrivals : List Exchange.Arrival) :
    ∃ deeds, Moves session.link deeds 0 false (session.arrive channel arrivals).2.link ∧
      (session.arrive channel arrivals).1 = eventsOf deeds := by
  unfold arrive
  split
  · exact ⟨_, .arrived _ _, rfl⟩
  · exact ⟨[], .still _, rfl⟩

/-- What arrives on a channel does nothing to the handler. -/
theorem handler_arrive (session : Session) (channel : Channel)
    (arrivals : List Exchange.Arrival) :
    (session.arrive channel arrivals).2.handler = session.handler := by
  unfold arrive
  split <;> rfl

/-- What an action does. -/
theorem effect_act {action : Action} (h : (session.act action).session = some next) :
    session.Effect (session.act action) next := by
  cases action with
  | connect =>
    obtain rfl := Option.some.inj h
    exact effect_of_moves (.still _) rfl rfl rfl id
  | password username password => exact effect_tryPassword h
  | askMethods username => exact effect_askMethods h
  | openChannel channel request => exact effect_openChannel h
  | send channel bytes =>
    exact effect_onChannel (fun session channel => moves_arrive session channel _)
      (fun session channel => handler_arrive session channel _) h
  | sendExtended channel bytes =>
    exact effect_onChannel (fun _ _ => ⟨[], .still _, rfl⟩) (fun _ _ => rfl) h
  | endInput channel =>
    exact effect_onChannel (fun session channel => moves_arrive session channel _)
      (fun session channel => handler_arrive session channel _) h
  | closeChannel channel =>
    exact effect_onChannel (fun session channel => moves_arrive session channel _)
      (fun session channel => handler_arrive session channel _) h
  | wait ms =>
    obtain rfl := Option.some.inj h
    exact effect_of_moves (.elapsed _ _) rfl rfl rfl fun hnone => channels_absorb hnone _
  | disconnect =>
    obtain rfl := Option.some.inj h
    exact effect_of_moves (.severed _ _) rfl rfl rfl fun hnone => channels_absorb hnone _
  | drop => cases h

end Effects

/-! ## Which action grants a channel -/

/-- Only a question for a session channel is granted, on a transport that is up, to a client that
is authenticated, and at once. -/
theorem act_of_grants {session : Session} {action : Action}
    (h : (session.act action).reply.grants = true) :
    session.link.isUp = true ∧ session.authenticated = true ∧
      (session.act action).duration = 0 ∧
      ∃ name, action = .openChannel name (.decided .session) := by
  have hchannel (name : String) (effect : Session → Channel → List Event × Session) :
      (session.onChannel name effect).reply.grants = false := by
    rcases session.onChannel_cases name effect with hact | ⟨-, hact⟩ | ⟨-, -, channel, hact⟩ <;>
      rw [hact] <;> rfl
  cases action with
  | connect | wait | disconnect | drop => cases h
  | password username password =>
    simp only [act] at h
    rcases session.tryPassword_cases username password with hact | hact | hact | hact <;>
      rw [hact] at h <;> cases h
  | askMethods username =>
    simp only [act] at h
    rcases session.askMethods_cases with hact | hact | hact | hact <;> rw [hact] at h <;> cases h
  | openChannel name request =>
    simp only [act] at h ⊢
    rcases session.openChannel_cases name request with hact | hact | ⟨events, -, hact⟩ |
      ⟨hup, hauth, rfl, hact⟩
    · rw [hact] at h
      cases h
    · rw [hact] at h
      cases h
    · rw [hact] at h
      cases h
    · exact ⟨hup, hauth, by rw [hact]; rfl, name, rfl⟩
  | send | sendExtended | endInput | closeChannel =>
    simp only [act, hchannel] at h
    cases h

/-- A client loses its session by dropping it alone. -/
theorem eq_drop_of_none {session : Session} {action : Action}
    (h : (session.act action).session = none) : action = .drop := by
  have hchannel (name : String) (effect : Session → Channel → List Event × Session) :
      (session.onChannel name effect).session ≠ none := by
    rcases session.onChannel_cases name effect with hact | ⟨-, hact⟩ | ⟨-, -, channel, hact⟩ <;>
      rw [hact] <;> exact Option.some_ne_none _
  cases action with
  | drop => rfl
  | connect | wait | disconnect => cases h
  | password username password =>
    simp only [act] at h
    rcases session.tryPassword_cases username password with hact | hact | hact | hact <;>
      rw [hact] at h <;> cases h
  | askMethods username =>
    simp only [act] at h
    rcases session.askMethods_cases with hact | hact | hact | hact <;> rw [hact] at h <;> cases h
  | openChannel name request =>
    simp only [act] at h
    rcases session.openChannel_cases name request with hact | hact | ⟨events, -, hact⟩ |
      ⟨-, -, -, hact⟩ <;> rw [hact] at h <;> cases h
  | send | sendExtended | endInput | closeChannel => exact absurd h (hchannel _ _)

end Session

/-! ## The sessions of a server -/

namespace Server

/-- Every session of a server has a life. -/
def Lives (server : Server) : Prop :=
  ∀ client session, (client, session) ∈ server.sessions →
    ∃ history, Life server.credentials (server.assignment client) history session

/-- The session that a client is found to have is one of the server. -/
theorem mem_of_session? {server : Server} {client : Client} {session : Session}
    (h : server.session? client = some session) : (client, session) ∈ server.sessions := by
  obtain ⟨⟨name, found⟩, hfind, rfl⟩ := Option.map_eq_some_iff.mp h
  have hname : name = client := by simpa using List.find?_some hfind
  exact hname ▸ List.mem_of_find?_eq_some hfind

/-- What the action of a step leaves to its client has a life. -/
theorem life_outcome {server : Server} (h : server.Lives) {step : Step} {session : Session}
    (hsession : (server.outcome step).session = some session) :
    ∃ history, Life server.credentials (server.assignment step.client) history session := by
  unfold outcome Session.perform at hsession
  split at hsession
  · split at hsession
    · exact ⟨[], .connected hsession⟩
    · cases hsession
    · cases hsession
  · rename_i before hbefore
    split at hsession
    · exact ⟨[], .connected hsession⟩
    · obtain ⟨history, hlife⟩ := h _ _ (mem_of_session? hbefore)
      exact ⟨_, .acted _ hlife hsession⟩

/-- A step leaves every session with a life. What the acting client does is a wait for all
others. -/
theorem lives_step {server : Server} (h : server.Lives) (step : Step) :
    (server.step step).2.Lives := by
  intro client session hmem
  simp only [Server.step, List.mem_append, List.mem_map, Option.mem_toList] at hmem
  rcases hmem with ⟨_, ⟨other, hother, rfl⟩, hentry⟩ | ⟨_, hsession, hentry⟩
  · cases hentry
    obtain ⟨history, hlife⟩ := h _ _ ((List.mem_filter.mp hother).1)
    exact ⟨_, .acted (.wait (server.outcome step).duration) hlife rfl⟩
  · cases hentry
    exact life_outcome h hsession

/-- All sessions that clients bring about by steps on a server have lives. -/
theorem sessions_live (address : String) (context : Context) (steps : List Step) :
    ((start address context).steps steps).2.Lives := by
  have hsteps (server : Server) (h : server.Lives) : (server.steps steps).2.Lives := by
    induction steps generalizing server with
    | nil => exact h
    | cons first rest ih => exact ih (server.step first).2 (lives_step h first)
  exact hsteps _ fun client session hmem => by cases hmem

end Server

end PongFixture.Ssh
