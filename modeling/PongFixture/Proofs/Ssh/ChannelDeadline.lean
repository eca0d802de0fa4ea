import PongFixture.Proofs.Ssh.Life
import PongFixture.Ssh.Opening

/-!
# The time in which a channel must come

The worker of a connection waits for the first session channel, from the end of the version exchange
on. Its clock is the time since then, whatever the client does in that time (`Timed`), so that a
client without a channel is given up at the deadline exactly, and one that has a channel never is.

An action may take time, and the deadline may fall into it. `during` is what an action has come to
after a part of its time.
-/

set_option autoImplicit false

namespace PongFixture.Ssh

/-! ## A connection keeps its time -/

/-- What holds of a connection after some history: its clock is the time that has passed; it awaits
a channel, within its patience, as long as none has been accepted and it is up; and it has said no
farewell before it ends. -/
structure Timed (assignment : Assignment) (history : History) (session : Session) : Prop where
  assigned : session.link.assignment = assignment
  age : session.link.age = time history
  established : session.link.stage ≠ .connecting
  fresh : ¬ Accepted history → session.IsFresh ∧
    (session.link.stage = .awaitingChannel ∨ session.link.stage = .left)
  awaits : session.link.stage = .awaitingChannel →
    ¬ Accepted history ∧ session.link.age < session.link.patience
  farewell : session.link.stage ≠ .left → session.link.farewell = none
  tired : ∀ step ∈ history, ∀ line ∈ step.2.events, line.message = "No channel opened in time" →
    ¬ Accepted history ∧ session.link.stage = .left

/-- An action adds its duration to the time of a history. -/
@[simp] theorem time_append (history : History) (action : Action) (outcome : Outcome) :
    time (history ++ [(action, outcome)]) = time history + outcome.duration := by
  induction history with
  | nil => simp [time]
  | cons step history ih => simp [time, ih, Nat.add_assoc]

/-- What one more action accepts. -/
theorem accepted_append (history : History) (session : Session) (action : Action) :
    Accepted (history ++ [(action, session.act action)]) ↔
      Accepted history ∨ (session.act action).reply.grants = true := by
  constructor
  · rintro ⟨name, outcome, hmem, hgrants⟩
    rcases List.mem_append.mp hmem with hbefore | hlast
    · exact .inl ⟨name, outcome, hbefore, hgrants⟩
    · cases List.mem_singleton.mp hlast
      exact .inr hgrants
  · rintro (⟨name, outcome, hbefore, hgrants⟩ | hgrants)
    · exact ⟨name, outcome, List.mem_append_left _ hbefore, hgrants⟩
    · obtain ⟨-, -, -, name, rfl⟩ := Session.act_of_grants hgrants
      exact ⟨name, _, List.mem_append_right _ (List.mem_singleton.mpr rfl), hgrants⟩

/-- Right after the version exchange the worker awaits a channel, and both clocks are at zero. -/
theorem link_begin (credentials : Credentials) (assignment : Assignment) :
    (Session.begin credentials assignment).link = ⟨assignment, .awaitingChannel, none, 0, 0⟩ := rfl

/-- A connection to a server that waits lasts. -/
theorem connect_of_pos {assignment : Assignment} (h : 0 < assignment.wait)
    (credentials : Credentials) (old : Option Session) :
    (Session.connect credentials assignment old).session =
      some (Session.begin credentials assignment) := by
  have hwaits : (Session.begin credentials assignment).link.elapse 0 =
      ([], (Session.begin credentials assignment).link) := by
    rcases Link.elapse_cases (Session.begin credentials assignment).link 0 with ⟨hquiet, -⟩ |
      ⟨-, hdue, -⟩ | ⟨-, hdue, -⟩
    · exact hquiet
    · simp only [Link.patience, link_begin] at hdue
      omega
    · simp [link_begin, silenceLimit] at hdue
  simp only [Session.connect, Session.elapse, hwaits]
  rfl

/-- A server that does not wait gives up a connection at once. -/
theorem connect_of_zero {assignment : Assignment} (h : assignment.wait = 0)
    (credentials : Credentials) (old : Option Session) :
    Session.connect credentials assignment old =
      ⟨.connected false,
        Listener.accepted protocolName assignment.peer :: (Link.timeoutLines assignment ++
          old.toList.flatMap fun session => (session.sever "early eof").1), 0, none⟩ := by
  have htires : (Session.begin credentials assignment).link.elapse 0 =
      (assignment.impatience :: assignment.farewell,
        ((Session.begin credentials assignment).link.later 0).wearied) := by
    rcases Link.elapse_cases (Session.begin credentials assignment).link 0 with ⟨-, hwaits, -⟩ |
      ⟨-, -, -, hweary⟩ | ⟨-, hdue, -⟩
    · have := hwaits rfl
      simp [Link.patience, link_begin, h] at this
    · exact hweary
    · simp [link_begin, silenceLimit] at hdue
  simp only [Session.connect, Session.elapse, htires]
  rfl

/-- A connection that has just been established keeps its time. -/
theorem timed_begin (credentials : Credentials) {assignment : Assignment}
    (h : 0 < assignment.wait) : Timed assignment [] (Session.begin credentials assignment) where
  assigned := rfl
  age := rfl
  established := by simp [link_begin]
  fresh := fun _ => ⟨⟨rfl, rfl⟩, .inl rfl⟩
  awaits := fun _ => by
    refine ⟨?_, by simp only [link_begin, Link.patience]; omega⟩
    rintro ⟨name, outcome, hmem, -⟩
    cases hmem
  farewell := fun _ => rfl
  tired := fun step hmem => by cases hmem

/-- What a client does leaves its connection in time. -/
theorem Timed.act {assignment : Assignment} {history : History} {session next : Session}
    {action : Action} (h : Timed assignment history session)
    (hnext : (session.act action).session = some next) :
    Timed assignment (history ++ [(action, session.act action)]) next := by
  obtain ⟨⟨deeds, passes, hmoves, hevents, hpasses⟩, hfresh⟩ := Session.effect_act hnext
  exact {
    assigned := hmoves.assignment_eq.trans h.assigned
    age := by rw [hmoves.age_eq, h.age, time_append]
    established := fun hback => h.established (hmoves.connecting_of hback)
    fresh := by
      intro hnone
      rw [accepted_append, not_or, Bool.not_eq_true] at hnone
      obtain ⟨hbefore, hstage⟩ := h.fresh hnone.1
      refine ⟨hfresh hbefore hnone.2, ?_⟩
      rcases hstage with hawaits | hleft
      · exact hmoves.stage_of_awaits ((hpasses hbefore).trans hnone.2) hawaits
      · exact .inr (hmoves.left_of hleft)
    awaits := by
      intro hstays
      obtain ⟨hstage, hnone, hkept⟩ := hmoves.awaits_of hstays
      obtain ⟨hbefore, hage⟩ := h.awaits hstage
      rw [accepted_append, ← hpasses (h.fresh hbefore).1, hnone]
      refine ⟨?_, hkept hage⟩
      rintro (haccepted | hpassed)
      · exact hbefore haccepted
      · cases hpassed
    farewell := fun hup => hmoves.farewell_of
      (h.farewell fun hleft => hup (hmoves.left_of hleft)) hup
    tired := by
      intro step hmem line hline hmessage
      rw [accepted_append, not_or, Bool.not_eq_true]
      rcases List.mem_append.mp hmem with hbefore | hlast
      · obtain ⟨hnone, hleft⟩ := h.tired step hbefore line hline hmessage
        refine ⟨⟨hnone, ?_⟩, hmoves.left_of hleft⟩
        apply Bool.eq_false_iff.mpr
        intro hgrants
        exact Link.isUp_iff.mp (Session.act_of_grants hgrants).1 hleft
      · obtain rfl := List.mem_singleton.mp hlast
        rw [hevents] at hline
        obtain ⟨hstage, hdue, hleft⟩ := hmoves.tired_of_mem hline hmessage
        obtain ⟨hnone, hage⟩ := h.awaits hstage
        refine ⟨⟨hnone, ?_⟩, hleft⟩
        apply Bool.eq_false_iff.mpr
        intro hgrants
        -- A channel is granted at once, while the patience has not run out yet.
        have hatOnce := (Session.act_of_grants hgrants).2.2.1
        omega }

/-- Every connection keeps its time. -/
theorem timed_of_life {credentials : Credentials} {assignment : Assignment} {history : History}
    {session : Session} (h : Life credentials assignment history session) :
    Timed assignment history session := by
  induction h with
  | connected hconnected =>
    by_cases hwait : 0 < assignment.wait
    · rw [connect_of_pos hwait] at hconnected
      obtain rfl := Option.some.inj hconnected
      exact timed_begin credentials hwait
    · rw [connect_of_zero (by omega)] at hconnected
      cases hconnected
  | acted action hlife hnext ih => exact ih.act hnext

/-! ## Within an action -/

namespace Link

/-- What has come of an answer that is held back, after a part of the time. The client is heard of
again when it gets the answer. -/
def heldBack (link : Link) (ms : Nat) : List Deed × Link :=
  if ms ≤ rejectionDelay then link.elapse ms
  else
    let (first, link) := link.elapse rejectionDelay
    let (second, link) := link.heard.elapse (ms - rejectionDelay)
    (first ++ second, link)

namespace Awaits

variable {link : Link} {ms : Nat}

/-- A worker that awaits a channel does so when a message is heard, too. -/
theorem heard (h : Awaits link) : Awaits link.heard := ⟨h.stage, h.age, h.farewell⟩

/-- While an answer is held back a worker that awaits a channel does nothing, if the transport stays
up. -/
theorem heldBack (h : Awaits link) (hup : (link.heldBack ms).2.isUp = true) :
    (link.heldBack ms).1 = [] := by
  by_cases hms : ms ≤ rejectionDelay
  · rw [Link.heldBack, if_pos hms] at hup ⊢
    rw [(h.elapse hup).1]
  · rw [Link.heldBack, if_neg hms] at hup ⊢
    have hfirst : (link.elapse rejectionDelay).2.isUp = true := by
      apply isUp_iff.mpr
      intro hleft
      apply isUp_iff.mp hup
      exact (Moves.elapsed (link.elapse rejectionDelay).2.heard _).left_of hleft
    obtain ⟨hquiet, hwaits⟩ := h.elapse hfirst
    have hrest := (hwaits.heard.elapse hup).1
    dsimp only
    rw [hrest, hquiet]
    rfl

/-- At its deadline a worker that awaits a channel gives up, also while an answer is held back. -/
theorem heldBack_deadline (h : Awaits link) (hdeadline : link.age + ms = link.patience)
    (hms : ms ≤ rejectionDelay + Session.settlingTime)
    (hup : ∀ earlier < ms, (link.heldBack earlier).2.isUp = true) {later : Nat}
    (hlater : ms ≤ later) :
    GaveUp link.assignment (eventsOf (link.heldBack later).1) (link.heldBack later).2 := by
  by_cases hfirst : ms ≤ rejectionDelay
  · -- The deadline falls into the delay, and nothing comes after it.
    have hbefore : ∀ earlier < ms, (link.elapse earlier).2.isUp = true := by
      intro earlier hearlier
      have := hup earlier hearlier
      rwa [Link.heldBack, if_pos (by omega)] at this
    by_cases hsecond : later ≤ rejectionDelay
    · rw [Link.heldBack, if_pos hsecond]
      exact h.deadline_of_isUp hdeadline hbefore hlater
    · rw [Link.heldBack, if_neg hsecond]
      obtain ⟨hlines, hleft, hfarewell⟩ := h.deadline_of_isUp hdeadline hbefore hfirst
      have hgaveUp : GaveUp link.assignment (eventsOf (link.elapse rejectionDelay).1)
          (link.elapse rejectionDelay).2.heard := ⟨hlines, hleft, hfarewell⟩
      dsimp only
      rw [eventsOf_append]
      exact hgaveUp.elapse (later - rejectionDelay)
  · -- The deadline is the very end of the action: the worker has waited through the delay.
    have hdelay := hup rejectionDelay (by omega)
    rw [Link.heldBack, if_pos (Nat.le_refl _)] at hdelay
    obtain ⟨hquiet, hwaits⟩ := h.elapse hdelay
    rw [Link.heldBack, if_neg (by omega)]
    rw [hquiet] at hwaits ⊢
    have hend : (link.later rejectionDelay).heard.age + (ms - rejectionDelay) =
        (link.later rejectionDelay).heard.patience := by
      have hage : (link.later rejectionDelay).heard.age = link.age + rejectionDelay := rfl
      have hpatience : (link.later rejectionDelay).heard.patience = link.patience := rfl
      omega
    have hheard : (link.later rejectionDelay).heard.silence + (ms - rejectionDelay - 1) <
        silenceLimit := by
      have hsilence : (link.later rejectionDelay).heard.silence = 0 := rfl
      simp only [hsilence, Session.settlingTime, silenceLimit] at hms ⊢
      omega
    exact hwaits.heard.deadline hend hheard (by omega)

end Awaits

end Link

namespace Session

/-- What has come of an answer that is held back, after a part of the time. -/
def heldBack (session : Session) (ms : Nat) : List Event × Session :=
  if ms ≤ rejectionDelay then session.elapse ms
  else
    let (first, session) := session.elapse rejectionDelay
    let (second, session) := session.heard.elapse (ms - rejectionDelay)
    (first ++ second, session)

/-- What comes of an answer that is held back, by the link. -/
theorem heldBack_eq (session : Session) (ms : Nat) :
    (session.heldBack ms).1 = eventsOf (session.link.heldBack ms).1 ∧
      (session.heldBack ms).2.link = (session.link.heldBack ms).2 := by
  unfold heldBack Link.heldBack
  split
  · exact ⟨rfl, rfl⟩
  · dsimp only
    rw [eventsOf_append]
    exact ⟨rfl, rfl⟩

/-- What has come of an action that takes time, after a part of the time. -/
def during (session : Session) (ms : Nat) : Action → List Event × Session
  | .password username password =>
    ((session.handler.onPassword username password).2 ++ (session.attempting.heldBack ms).1,
      (session.attempting.heldBack ms).2)
  | .askMethods _ => session.heard.heldBack ms
  | _ => session.elapse ms

/-- What an action that takes time spends it on: waiting, or an answer that is held back. -/
theorem act_of_duration {session : Session} {action : Action}
    (h : (session.act action).duration ≠ 0) :
    (∃ ms, action = .wait ms) ∨
      ∃ (reports : List Event) (held : Session),
        (∀ line ∈ reports, line.message ∈ handlerReports) ∧ held.link = session.link.heard ∧
        (∀ ms, session.during ms action = (reports ++ (held.heldBack ms).1, (held.heldBack ms).2)) ∧
        (session.act action).duration = rejectionDelay + settlingTime ∧
        (session.act action).events = reports ++ held.holdBack.1 ∧
        (session.act action).session = some held.holdBack.2 := by
  have hchannel (name : String) (effect : Session → Channel → List Event × Session) :
      (session.onChannel name effect).duration = 0 := by
    rcases session.onChannel_cases name effect with hact | ⟨-, hact⟩ | ⟨-, -, channel, hact⟩ <;>
      rw [hact]
  cases action with
  | connect | disconnect | drop => exact absurd rfl h
  | wait ms => exact .inl ⟨ms, rfl⟩
  | openChannel name request =>
    simp only [act] at h
    rcases session.openChannel_cases name request with hact | hact | ⟨events, -, hact⟩ |
      ⟨-, -, -, hact⟩
    · exact absurd (by rw [hact]) h
    · exact absurd (by rw [hact]) h
    · exact absurd (by rw [hact]) h
    · exact absurd (by rw [hact, request_session]) h
  | send | sendExtended | endInput | closeChannel => exact absurd (hchannel _ _) h
  | password username password =>
    simp only [act] at h ⊢
    rcases session.tryPassword_cases username password with hact | hact | hact | hact
    · exact absurd (by rw [hact]) h
    · exact absurd (by rw [hact]) h
    · exact absurd (by rw [hact]) h
    · rw [hact]
      exact .inr ⟨_, session.attempting, fun line => mem_onPassword, rfl, fun ms => rfl, rfl,
        rfl, rfl⟩
  | askMethods username =>
    simp only [act] at h ⊢
    rcases session.askMethods_cases with hact | hact | hact | hact
    · exact absurd (by rw [hact]) h
    · exact absurd (by rw [hact]) h
    · exact absurd (by rw [hact]; rfl) h
    · rw [hact]
      exact .inr ⟨[], session.heard, by simp, rfl, fun ms => rfl, rfl, rfl, rfl⟩

/-- After the whole of its time an answer has been held back. -/
theorem heldBack_whole (session : Session) :
    session.heldBack (rejectionDelay + settlingTime) = session.holdBack := by
  simp [heldBack, holdBack, rejectionDelay, settlingTime]

/-- An action that takes time has come to its outcome when the time is over. -/
theorem during_duration {session : Session} {action : Action}
    (h : (session.act action).duration ≠ 0) :
    (session.act action).events = (session.during (session.act action).duration action).1 ∧
      (session.act action).session =
        some (session.during (session.act action).duration action).2 := by
  rcases act_of_duration h with ⟨ms, rfl⟩ |
    ⟨reports, held, -, -, hduring, hduration, hevents, hsession⟩
  · exact ⟨rfl, rfl⟩
  · rw [hduring, hduration, heldBack_whole]
    exact ⟨hevents, hsession⟩

/-- At its deadline a worker that awaits a channel gives up in the course of any action that takes
so long, if the transport is up until then. Until then the action has brought the reports of the
handler, and after it nothing more. -/
theorem during_deadline {session : Session} {action : Action} {ms : Nat} (h : session.link.Awaits)
    (hdeadline : session.link.age + ms = session.link.patience)
    (hms : ms ≤ (session.act action).duration)
    (hup : ∀ earlier < ms, (session.during earlier action).2.link.isUp = true) :
    ∃ reports : List Event, (∀ line ∈ reports, line.message ∈ handlerReports) ∧
      (∀ earlier < ms, (session.during earlier action).1 = reports) ∧
      ∀ later, ms ≤ later → ∃ lines, (session.during later action).1 = reports ++ lines ∧
        Link.GaveUp session.link.assignment lines (session.during later action).2.link := by
  have hage := h.age
  have htakes : (session.act action).duration ≠ 0 := by omega
  rcases act_of_duration htakes with
    ⟨total, rfl⟩ | ⟨reports, held, hreports, hlink, hduring, hduration, -, -⟩
  · refine ⟨[], by simp, ?_, ?_⟩
    · intro earlier hearlier
      exact congrArg (fun done => eventsOf done.1) (h.elapse (hup earlier hearlier)).1
    · intro later hlater
      exact ⟨_, rfl, h.deadline_of_isUp hdeadline hup hlater⟩
  · have hheld : held.link.Awaits := hlink ▸ h.heard
    have hassignment : held.link.assignment = session.link.assignment := by rw [hlink]; rfl
    have hend : held.link.age + ms = held.link.patience := by rw [hlink]; exact hdeadline
    have hstays : ∀ earlier < ms, (held.link.heldBack earlier).2.isUp = true := by
      intro earlier hearlier
      have := hup earlier hearlier
      rwa [hduring, (held.heldBack_eq earlier).2] at this
    refine ⟨reports, hreports, ?_, ?_⟩
    · intro earlier hearlier
      rw [hduring, (held.heldBack_eq earlier).1, hheld.heldBack (hstays earlier hearlier)]
      exact List.append_nil _
    · intro later hlater
      refine ⟨eventsOf (held.link.heldBack later).1, ?_, ?_⟩
      · rw [hduring, (held.heldBack_eq later).1]
      · rw [hduring, (held.heldBack_eq later).2, ← hassignment]
        exact hheld.heldBack_deadline hend (hduration ▸ hms) hstays hlater

/-! ## After the end -/

/-- A client whose transport is not up brings about no line. -/
theorem events_of_left {session : Session} (h : session.link.stage = .left) (action : Action) :
    (session.act action).events = [] := by
  have hdown : session.link.isUp = false := by simp [Link.isUp, h]
  have hsevered (error : Option String) : (session.link.sever error).1 = [] := by
    simp only [Link.sever, h, Stage.steps_left]
  have hchannel (name : String) (effect : Session → Channel → List Event × Session) :
      (session.onChannel name effect).events = [] := by
    rcases session.onChannel_cases name effect with hact | ⟨-, hact⟩ | ⟨-, hup, -⟩
    · rw [hact]
    · rw [hact]
    · exact absurd hup (by simp [hdown])
  cases action with
  | connect => rfl
  | password | askMethods | openChannel =>
    simp [act, tryPassword, askMethods, openChannel, hdown]
  | send | sendExtended | endInput | closeChannel => exact hchannel _ _
  | wait ms => exact congrArg (fun done => eventsOf done.1) (Link.elapse_of_left h ms)
  | disconnect | drop => exact congrArg eventsOf (hsevered _)

end Session

/-- Whether a reply tells that nothing is served any more. -/
def Reply.isEmpty : Reply → Bool
  | .authenticated .closed | .opened .closed none | .noChannel | .done => true
  | _ => false

namespace Session

/-- A client whose transport is not up, and that has opened no channel, is not served. -/
theorem reply_of_left {session : Session} (h : session.link.stage = .left)
    (hnone : session.channels = []) (action : Action) :
    (session.act action).reply.isEmpty = true := by
  have hdown : session.link.isUp = false := by simp [Link.isUp, h]
  have hchannel (name : String) (effect : Session → Channel → List Event × Session) :
      (session.onChannel name effect).reply.isEmpty = true := by
    simp [onChannel, channel?, hnone, Reply.isEmpty]
  cases action with
  | connect | wait | disconnect | drop => rfl
  | password | askMethods | openChannel =>
    simp [act, tryPassword, askMethods, openChannel, hdown, Reply.isEmpty]
  | send | sendExtended | endInput | closeChannel => exact hchannel _ _

end Session

/-! ## Bare octets -/

/-- How long an action of a peer takes, in milliseconds. -/
def PeerAction.duration : PeerAction → Nat
  | .wait ms => ms
  | _ => 0

/-- How long some actions of a peer take. -/
def waited : List PeerAction → Nat
  | [] => 0
  | action :: actions => action.duration + waited actions

namespace Opening

/-- An opening after some actions of its peer. -/
def after (opening : Opening) : List PeerAction → Opening
  | [] => opening
  | action :: actions => (opening.act action).2.after actions

/-- The moves by which octets after the version line are made use of. -/
theorem moves_receivePackets (opening : Opening) (bytes : Bytes) :
    ∃ deeds, Moves opening.link deeds 0 false (opening.receivePackets bytes).2.link ∧
      (opening.receivePackets bytes).1 = eventsOf deeds := by
  unfold receivePackets
  split
  · exact ⟨_, .severed _ _, rfl⟩
  · dsimp only
    split
    · exact ⟨[], .heard _, rfl⟩
    · exact ⟨[], .still _, rfl⟩

/-- The moves by which a peer acts after the version exchange. -/
theorem moves_act {opening : Opening} (h : opening.link.stage ≠ .connecting)
    (action : PeerAction) :
    ∃ deeds, Moves opening.link deeds action.duration false (opening.act action).2.link ∧
      (opening.act action).1 = eventsOf deeds := by
  have hfail (early late : String) :
      ∃ deeds, Moves opening.link deeds 0 false (opening.fail early late).2.link ∧
        (opening.fail early late).1 = eventsOf deeds := by
    unfold fail
    split
    · exact absurd ‹_› h
    · exact ⟨_, .severed _ _, rfl⟩
  cases action with
  | send bytes =>
    simp only [act, receive]
    split
    · exact absurd ‹_› h
    · exact ⟨[], .still _, rfl⟩
    · exact opening.moves_receivePackets _
  | shutdown => exact hfail _ _
  | reset => exact hfail _ _
  | wait ms => exact ⟨_, .elapsed _ ms, rfl⟩

/-- The link at the end of the version exchange. -/
theorem link_establish {link : Link} (h : link.stage = .connecting)
    (hfarewell : link.farewell = none) :
    link.establish.2 = ⟨link.assignment, .awaitingChannel, none, 0, 0⟩ := by
  simp only [Link.establish, Link.happen, h, hfarewell]
  rfl

/-- The moves by which the octets of a version line, and those after it, are made use of. -/
theorem moves_establish (opening : Opening) (rest : Bytes) :
    ∃ deeds, Moves opening.link.establish.2 deeds 0 false (opening.establish rest).2.link ∧
      (opening.establish rest).1 = eventsOf deeds := by
  obtain ⟨deeds, hmoves, hevents⟩ := moves_receivePackets
    (opening.withLink (opening.link.establish.2.elapse 0)).2 rest
  unfold establish
  dsimp only
  split
  · refine ⟨_, .both (.elapsed _ 0) hmoves, ?_⟩
    rw [eventsOf_append, hevents]
    rfl
  · exact ⟨_, .elapsed _ 0, rfl⟩

/-- The end of the version exchange starts the clock: unless the worker has no patience at all it
awaits a channel from then on, if the transport stays up. -/
theorem awaits_establish {opening : Opening} (h : opening.link.stage = .connecting)
    (hfarewell : opening.link.farewell = none) {rest : Bytes}
    (hup : (opening.establish rest).2.link.isUp = true) :
    (opening.establish rest).2.link.Awaits ∧ (opening.establish rest).2.link.age = 0 := by
  have hbegun := link_establish h hfarewell
  revert hup
  unfold establish
  dsimp only
  split
  · rename_i hfirst
    intro hup
    -- It is up after no time at all, so its patience is not over yet.
    obtain ⟨hlater, hpatience⟩ := (opening.link.establish.2.stage_elapse 0).resolve_right
      (Link.isUp_iff.mp hfirst)
    have hawaits : (opening.link.establish.2.elapse 0).2.Awaits := by
      have hage := hpatience (by rw [hbegun])
      rw [hlater]
      exact ⟨by rw [hbegun]; rfl, hage, by rw [hbegun]; rfl⟩
    obtain ⟨deeds, hmoves, -⟩ := moves_receivePackets
      (opening.withLink (opening.link.establish.2.elapse 0)).2 rest
    refine ⟨hmoves.awaits rfl hawaits hup, hmoves.age_eq.trans ?_⟩
    simp [withLink, hbegun]
  · intro hup
    exact absurd hup ‹_›

/-- What a peer does during the version exchange: it ends the exchange well by a version line, or
the worker does not begin to wait for a channel. -/
theorem act_of_connecting {opening : Opening} (h : opening.link.stage = .connecting)
    (action : PeerAction) :
    (∃ bytes rest, action = .send bytes ∧ findVersion opening.unread bytes = .found rest ∧
      opening.act action = opening.establish rest) ∨
    ((opening.act action).2.link.assignment = opening.link.assignment ∧
      ((opening.act action).2.link.stage = .left ∨
        (opening.act action).2.link.stage = .connecting ∧
          (opening.act action).2.link.farewell = opening.link.farewell) ∧
      ∀ line ∈ (opening.act action).1, line.message ≠ "No channel opened in time") := by
  have hfail (message : String) :
      (opening.link.happen (.setupFailed message)).2.stage = .left ∧
        ∀ line ∈ eventsOf (opening.link.happen (.setupFailed message)).1,
          line.message ≠ "No channel opened in time" := by
    refine ⟨by simp [Link.happen, h, Stage.step], ?_⟩
    intro line hline hmessage
    cases (tired_of_mem_step hline hmessage).2
  cases action with
  | send bytes =>
    simp only [act, receive, h]
    cases hfind : findVersion opening.unread bytes with
    | wanting held => exact .inr ⟨rfl, .inr ⟨h, rfl⟩, fun line hline => by cases hline⟩
    | found rest => exact .inl ⟨bytes, rest, rfl, hfind, rfl⟩
    | failed => exact .inr ⟨rfl, .inl (hfail _).1, (hfail _).2⟩
  | shutdown =>
    simp only [act, fail, h]
    exact .inr ⟨rfl, .inl (hfail _).1, (hfail _).2⟩
  | reset =>
    simp only [act, fail, h]
    exact .inr ⟨rfl, .inl (hfail _).1, (hfail _).2⟩
  | wait ms =>
    refine .inr ⟨Link.assignment_elapse _ _, ?_, ?_⟩
    · rcases opening.link.stage_elapse ms with ⟨hlater, -⟩ | hleft
      · refine .inr ⟨?_, ?_⟩
        · simp only [act, withLink, hlater]
          exact h
        · simp only [act, withLink, hlater]
          rfl
      · exact .inl hleft
    · intro line hline hmessage
      cases h.symm.trans (Link.tired_of_mem_elapse hline hmessage).1

/-- As long as the version exchange goes on no farewell has been said. -/
theorem after_connecting {opening : Opening}
    (hopening : opening.link.stage = .connecting → opening.link.farewell = none)
    (actions : List PeerAction) :
    (opening.after actions).link.assignment = opening.link.assignment ∧
      ((opening.after actions).link.stage = .connecting →
        (opening.after actions).link.farewell = none) := by
  induction actions generalizing opening with
  | nil => exact ⟨rfl, hopening⟩
  | cons action actions ih =>
    have hnext : (opening.act action).2.link.assignment = opening.link.assignment ∧
        ((opening.act action).2.link.stage = .connecting →
          (opening.act action).2.link.farewell = none) := by
      by_cases hstage : opening.link.stage = .connecting
      · rcases act_of_connecting hstage action with ⟨bytes, rest, -, -, hact⟩ |
          ⟨hassigned, hleft | ⟨-, hfarewell⟩, -⟩
        · obtain ⟨deeds, hmoves, -⟩ := moves_establish opening rest
          rw [hact]
          refine ⟨hmoves.assignment_eq.trans rfl, ?_⟩
          intro hback
          have := hmoves.connecting_of hback
          rw [link_establish hstage (hopening hstage)] at this
          cases this
        · exact ⟨hassigned, fun hback => by cases hleft.symm.trans hback⟩
        · exact ⟨hassigned, fun _ => hfarewell.trans (hopening hstage)⟩
      · obtain ⟨deeds, hmoves, -⟩ := moves_act hstage action
        exact ⟨hmoves.assignment_eq, fun hback => absurd (hmoves.connecting_of hback) hstage⟩
    obtain ⟨hassigned, hfarewell⟩ := ih hnext.2
    exact ⟨hassigned.trans hnext.1, hfarewell⟩

/-- A transport that has ended stays so. -/
theorem left_after {opening : Opening} (h : opening.link.stage = .left)
    (actions : List PeerAction) : (opening.after actions).link.stage = .left := by
  induction actions generalizing opening with
  | nil => exact h
  | cons action actions ih =>
    have hstage : opening.link.stage ≠ .connecting := by simp [h]
    obtain ⟨deeds, hmoves, -⟩ := moves_act hstage action
    exact ih (hmoves.left_of h)

/-- After the version exchange the worker awaits a channel as long as the transport is up, and its
clock is the time that the peer has waited. -/
theorem awaits_after {opening : Opening} (h : opening.link.Awaits) (actions : List PeerAction)
    (hup : (opening.after actions).link.isUp = true) :
    (opening.after actions).link.Awaits ∧
      (opening.after actions).link.age = opening.link.age + waited actions ∧
      (opening.after actions).link.assignment = opening.link.assignment := by
  induction actions generalizing opening with
  | nil => exact ⟨h, rfl, rfl⟩
  | cons action actions ih =>
    have hstage : opening.link.stage ≠ .connecting := by simp [h.stage]
    obtain ⟨deeds, hmoves, -⟩ := moves_act hstage action
    have hnext : (opening.act action).2.link.isUp = true :=
      Link.isUp_iff.mpr fun hleft => Link.isUp_iff.mp hup (left_after hleft actions)
    obtain ⟨hawaits, hage, hassigned⟩ := ih (hmoves.awaits rfl h hnext) hup
    refine ⟨hawaits, hage.trans ?_, hassigned.trans hmoves.assignment_eq⟩
    rw [hmoves.age_eq]
    simp [waited, Nat.add_assoc]

/-- The deadline of a peer that sends bare octets: its clock starts with the version line. Before
that the worker does not lose its patience, and when the time is over it gives up. -/
theorem deadline_after_version (assignment : Assignment) (actions : List PeerAction)
    (action : PeerAction)
    (h : ((accepted assignment).after actions).link.stage = .connecting) :
    (∀ line ∈ (((accepted assignment).after actions).act action).1,
      line.message = "No channel opened in time" → assignment.wait = 0 ∧
        ∃ bytes rest, action = .send bytes ∧
          findVersion ((accepted assignment).after actions).unread bytes = .found rest) ∧
    ((((accepted assignment).after actions).act action).2.link.stage = .awaitingChannel →
      (∃ bytes rest, action = .send bytes ∧
        findVersion ((accepted assignment).after actions).unread bytes = .found rest) ∧
      ∀ later ms,
        let reached := (((accepted assignment).after actions).act action).2.after later
        reached.link.isUp = true → waited later + ms = 1000 * assignment.wait →
        (∀ earlier < ms, (reached.act (.wait earlier)).2.link.isUp = true) →
        Link.GaveUp assignment (reached.act (.wait ms)).1 (reached.act (.wait ms)).2.link) := by
  have haccepted : (accepted assignment).link.stage = .connecting →
      (accepted assignment).link.farewell = none := fun _ => rfl
  obtain ⟨hassigned, hfarewell⟩ := after_connecting haccepted actions
  have hnone := hfarewell h
  rcases act_of_connecting h action with ⟨bytes, rest, haction, hfind, hact⟩ |
    ⟨-, hstage, hlines⟩
  · rw [hact]
    obtain ⟨deeds, hmoves, hevents⟩ :=
      moves_establish ((accepted assignment).after actions) rest
    rw [link_establish h hnone, hassigned] at hmoves
    constructor
    · intro line hline hmessage
      refine ⟨?_, bytes, rest, haction, hfind⟩
      rw [hevents] at hline
      have hdue := (hmoves.tired_of_mem hline hmessage).2.1
      simp only [Link.patience, accepted, Link.accepted] at hdue
      omega
    · intro hstage
      refine ⟨⟨bytes, rest, haction, hfind⟩, ?_⟩
      intro later ms reached hup htime hbefore
      have hestablished : (((accepted assignment).after actions).establish rest).2.link.isUp =
          true := Link.isUp_iff.mpr (by simp [hstage])
      obtain ⟨hstart, hzero⟩ := awaits_establish h hnone hestablished
      obtain ⟨hawaits, hage, hsame⟩ := awaits_after hstart later hup
      have hassignment : reached.link.assignment = assignment :=
        hsame.trans hmoves.assignment_eq
      have hdeadline : reached.link.age + ms = reached.link.patience := by
        rw [Link.patience, hassignment, hage, hzero]
        omega
      exact hassignment ▸ hawaits.deadline_of_isUp hdeadline hbefore (Nat.le_refl ms)
  · constructor
    · intro line hline hmessage
      exact absurd hmessage (hlines line hline)
    · intro hawaits
      rcases hstage with hleft | ⟨hconnecting, -⟩
      · cases hleft.symm.trans hawaits
      · cases hconnecting.symm.trans hawaits

end Opening

/-! ## The deadline of a client -/

namespace Session

/-- Only a worker that still awaits a channel tells of a lost patience. -/
theorem awaits_of_mem_act {session : Session} {action : Action} {line : Event}
    (h : line ∈ (session.act action).events)
    (hmessage : line.message = "No channel opened in time") :
    session.link.stage = .awaitingChannel := by
  cases hnext : (session.act action).session with
  | some next =>
    obtain ⟨⟨deeds, passes, hmoves, hevents, -⟩, -⟩ := effect_act hnext
    exact (hmoves.tired_of_mem (hevents ▸ h) hmessage).1
  | none =>
    obtain rfl := eq_drop_of_none hnext
    exact absurd hmessage (Link.message_sever h)

end Session

/-- The worker of a client that has no channel gives up at its deadline, whatever the client does,
unless the transport ends before. -/
theorem deadline_of_life {credentials : Credentials} {assignment : Assignment}
    {history : History} {session : Session} (h : Life credentials assignment history session)
    (hnone : ¬ Accepted history) (hup : session.link.isUp = true) :
    time history < 1000 * assignment.wait ∧
    ∀ action ms, ms ≤ (session.act action).duration →
      time history + ms = 1000 * assignment.wait →
      (∀ earlier < ms, (session.during earlier action).2.link.isUp = true) →
      ∃ reports : List Event, (∀ line ∈ reports, line.message ∈ handlerReports) ∧
        (∀ earlier < ms, (session.during earlier action).1 = reports) ∧
        (session.during ms action).1 = reports ++ Link.timeoutLines assignment ∧
        (session.during ms action).2.link.stage = .left ∧
        (session.during ms action).2.link.farewell = some ⟨"ByApplication", ""⟩ ∧
        (session.act action).events = reports ++ Link.timeoutLines assignment ∧
        ∀ next, (session.act action).session = some next → next.link.stage = .left := by
  have htimed := timed_of_life h
  have hstage := (htimed.fresh hnone).2.resolve_right (Link.isUp_iff.mp hup)
  have hawaits : session.link.Awaits :=
    ⟨hstage, (htimed.awaits hstage).2, htimed.farewell (Link.isUp_iff.mp hup)⟩
  have hpatience : session.link.patience = 1000 * assignment.wait := by
    rw [Link.patience, htimed.assigned]
  have hage := hawaits.age
  rw [hpatience, htimed.age] at hage
  refine ⟨hage, ?_⟩
  intro action ms hms htime hbefore
  obtain ⟨reports, hreports, hquiet, hgaveUp⟩ := Session.during_deadline hawaits
    (by rw [hpatience, htimed.age, htime]) hms hbefore
  obtain ⟨lines, hlines, hthen⟩ := hgaveUp ms (Nat.le_refl ms)
  obtain ⟨linesLast, hlinesLast, hlast⟩ := hgaveUp (session.act action).duration hms
  have htakes : (session.act action).duration ≠ 0 := by omega
  obtain ⟨hevents, hsession⟩ := Session.during_duration htakes
  rw [htimed.assigned] at hthen hlast
  refine ⟨reports, hreports, hquiet, ?_, hthen.left, hthen.farewell, ?_, ?_⟩
  · rw [hlines, hthen.lines]
  · rw [hevents, hlinesLast, hlast.lines]
  · intro next hnext
    rw [hsession] at hnext
    obtain rfl := Option.some.inj hnext
    exact hlast.left

/-- A client whose worker has told of a lost patience is not served any more. -/
theorem unserved_of_tired {credentials : Credentials} {assignment : Assignment}
    {history : History} {session : Session} (h : Life credentials assignment history session)
    {step : Action × Outcome} {line : Event} (hstep : step ∈ history)
    (hline : line ∈ step.2.events) (hmessage : line.message = "No channel opened in time") :
    ¬ Accepted history ∧ session.link.stage = .left ∧
      ∀ action, (session.act action).events = [] ∧
        (session.act action).reply.isEmpty = true := by
  have htimed := timed_of_life h
  obtain ⟨hnone, hleft⟩ := htimed.tired step hstep line hline hmessage
  refine ⟨hnone, hleft, ?_⟩
  intro action
  have hfresh := (htimed.fresh hnone).1
  exact ⟨Session.events_of_left hleft action, Session.reply_of_left hleft hfresh.2 action⟩

/-- A client that has a channel never meets the deadline: no action makes its worker tell of a lost
patience, and time alone leaves the transport up, as long as the client is not silent for too
long. -/
theorem untroubled_of_accepted {credentials : Credentials} {assignment : Assignment}
    {history : History} {session : Session} (h : Life credentials assignment history session)
    (haccepted : Accepted history) :
    (∀ step ∈ history, ∀ line ∈ step.2.events, line.message ≠ "No channel opened in time") ∧
    (∀ action, ∀ line ∈ (session.act action).events,
      line.message ≠ "No channel opened in time") ∧
    (session.link.isUp = true → ∀ ms, session.link.silence + ms < silenceLimit →
      (session.elapse ms).1 = [] ∧ (session.elapse ms).2.link.isUp = true) := by
  have htimed := timed_of_life h
  have hstage : session.link.stage ≠ .awaitingChannel := by
    intro hawaits
    exact (htimed.awaits hawaits).1 haccepted
  refine ⟨?_, ?_, ?_⟩
  · intro step hstep line hline hmessage
    exact (htimed.tired step hstep line hline hmessage).1 haccepted
  · intro action line hline hmessage
    exact hstage (Session.awaits_of_mem_act hline hmessage)
  · intro hup ms hheard
    have hquiet : session.link.elapse ms = ([], session.link.later ms) := by
      rcases Link.elapse_cases session.link ms with ⟨hquiet, -⟩ | ⟨hawaits, -⟩ | ⟨-, hsilence, -⟩
      · exact hquiet
      · exact absurd hawaits hstage
      · omega
    rw [Session.elapse, hquiet]
    exact ⟨rfl, hup⟩

/-- The worker of a connection waits for a session channel for the configured time, counted from the
end of the version exchange. Whatever a client does, its clock is the time that has passed. A client
that has no channel by then is given up at that very time, in whichever action it falls, and is not
served any more; one that has a channel is never given up for it. A worker that has no time at all
gives up at once. The clock of a peer that sends bare octets starts with its version line, and
before that nothing is given up for the lack of a channel. -/
theorem channel_deadline (credentials : Credentials) (assignment : Assignment) :
    (∀ history session, Life credentials assignment history session →
      session.link.age = time history ∧
      (¬ Accepted history → session.link.isUp = true →
        time history < 1000 * assignment.wait ∧
        ∀ action ms, ms ≤ (session.act action).duration →
          time history + ms = 1000 * assignment.wait →
          (∀ earlier < ms, (session.during earlier action).2.link.isUp = true) →
          ∃ reports : List Event, (∀ line ∈ reports, line.message ∈ handlerReports) ∧
            (∀ earlier < ms, (session.during earlier action).1 = reports) ∧
            (session.during ms action).1 = reports ++ Link.timeoutLines assignment ∧
            (session.during ms action).2.link.stage = .left ∧
            (session.during ms action).2.link.farewell = some ⟨"ByApplication", ""⟩ ∧
            (session.act action).events = reports ++ Link.timeoutLines assignment ∧
            ∀ next, (session.act action).session = some next → next.link.stage = .left) ∧
      (∀ step ∈ history, ∀ line ∈ step.2.events, line.message = "No channel opened in time" →
        ¬ Accepted history ∧ session.link.stage = .left ∧
          ∀ action, (session.act action).events = [] ∧
            (session.act action).reply.isEmpty = true) ∧
      (Accepted history →
        (∀ step ∈ history, ∀ line ∈ step.2.events,
          line.message ≠ "No channel opened in time") ∧
        (∀ action, ∀ line ∈ (session.act action).events,
          line.message ≠ "No channel opened in time") ∧
        (session.link.isUp = true → ∀ ms, session.link.silence + ms < silenceLimit →
          (session.elapse ms).1 = [] ∧ (session.elapse ms).2.link.isUp = true))) ∧
    (assignment.wait = 0 → ∀ old,
      (Session.connect credentials assignment old).session = none ∧
      ∃ others, (Session.connect credentials assignment old).events =
        Listener.accepted protocolName assignment.peer ::
          (Link.timeoutLines assignment ++ others)) ∧
    ∀ actions action,
      let opening := (Opening.accepted assignment).after actions
      opening.link.stage = .connecting →
      (∀ line ∈ (opening.act action).1, line.message = "No channel opened in time" →
        assignment.wait = 0 ∧
          ∃ bytes rest, action = .send bytes ∧
            findVersion opening.unread bytes = .found rest) ∧
      ((opening.act action).2.link.stage = .awaitingChannel →
        (∃ bytes rest, action = .send bytes ∧
          findVersion opening.unread bytes = .found rest) ∧
        ∀ later ms,
          let reached := (opening.act action).2.after later
          reached.link.isUp = true → waited later + ms = 1000 * assignment.wait →
          (∀ earlier < ms, (reached.act (.wait earlier)).2.link.isUp = true) →
          Link.GaveUp assignment (reached.act (.wait ms)).1
            (reached.act (.wait ms)).2.link) := by
  refine ⟨?_, ?_, ?_⟩
  · intro history session hlife
    refine ⟨(timed_of_life hlife).age, ?_, ?_, ?_⟩
    · exact deadline_of_life hlife
    · intro step hstep line hline hmessage
      exact unserved_of_tired hlife hstep hline hmessage
    · exact untroubled_of_accepted hlife
  · intro hwait old
    rw [connect_of_zero hwait]
    exact ⟨rfl, _, rfl⟩
  · intro actions action opening hconnecting
    exact Opening.deadline_after_version assignment actions action hconnecting

/-- A deadline of three seconds that falls into the time for which the answer to a wrong password is
held back. -/
theorem deadline_in_held_back_answer :
    ∃ history session, Life ⟨"user", "secret"⟩ ⟨"127.0.0.1:4022", 3⟩ history session ∧
      time history = 2400 ∧ session.link.isUp = true ∧ ¬ Accepted history ∧
      ∃ reports, (session.act (.password "user" "guess")).events =
        reports ++ Link.timeoutLines ⟨"127.0.0.1:4022", 3⟩ := by
  have hlife : Life ⟨"user", "secret"⟩ ⟨"127.0.0.1:4022", 3⟩ _ _ :=
    .acted (.wait 2400) (.connected (connect_of_pos (by decide) _ none)) rfl
  have hnone : ¬ Accepted [(Action.wait 2400,
      (Session.begin ⟨"user", "secret"⟩ ⟨"127.0.0.1:4022", 3⟩).act (.wait 2400))] := by
    rintro ⟨name, outcome, hmem, -⟩
    simp at hmem
  obtain ⟨-, hdeadline, -⟩ := (channel_deadline _ _).1 _ _ hlife
  obtain ⟨reports, -, -, -, -, -, hevents, -⟩ := (hdeadline hnone (by decide +kernel)).2
    (.password "user" "guess") 600 (by decide +kernel) rfl (by decide +kernel)
  exact ⟨_, _, hlife, rfl, by decide +kernel, hnone, reports, hevents⟩

end PongFixture.Ssh
