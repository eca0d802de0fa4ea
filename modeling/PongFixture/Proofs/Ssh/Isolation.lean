import PongFixture.Proofs.Ssh.Account

/-!
# SSH clients share nothing but time

To one client, the others are the time that their steps take. What it sees of a run, the replies to
its own steps and the state of its transport after each, is a play of its connection against its own
schedule: its actions, each with the time that the others have let pass since the one before
(`seenBy_eq_play`). So nothing changes for it when every step of another client is replaced by a
wait of the same length (`others_are_only_time`).

Two facts carry this. It does not matter in which portions time passes for a session
(`Session.elapse_add`), so the steps of the others between two actions add up. And no time at all
changes nothing (`Session.elapse_zero`), since nothing is ever left due on a link (`Link.Steady`).
-/

set_option autoImplicit false

namespace PongFixture.Ssh

/-! ## Time on a session -/

/-- A channel that has vanished is not open. -/
@[simp] theorem Channel.isOpen_vanish (channel : Channel) : channel.vanish.isOpen = false := by
  unfold vanish
  split
  · rfl
  · exact Bool.eq_false_iff.mpr ‹_›

/-- A channel that is gone already does not change by vanishing. -/
theorem Channel.vanish_eq_self {channel : Channel} (h : channel.isOpen = false) :
    channel.vanish = channel := by
  simp [vanish, h]

/-- A channel vanishes once. -/
@[simp] theorem Channel.vanish_vanish (channel : Channel) :
    channel.vanish.vanish = channel.vanish :=
  vanish_eq_self channel.isOpen_vanish

namespace Link

/-- A link on which nothing is due: neither the worker's patience nor the silence of the peer has
run out. -/
structure Steady (link : Link) : Prop where
  patience : link.stage = .awaitingChannel → link.age < link.patience
  silence : link.isUp = true → link.silence < silenceLimit

/-- Where nothing is due, no time changes nothing. -/
theorem Steady.elapse_zero {link : Link} (h : link.Steady) : link.elapse 0 = ([], link) := by
  rcases link.elapse_cases 0 with ⟨hquiet, -⟩ | ⟨hstage, hdue, -⟩ | ⟨hup, hdue, -⟩
  · exact hquiet
  · have := h.patience hstage
    omega
  · have := h.silence hup
    omega

end Link

/-- No move brings a transport up. -/
theorem Moves.isUp_of {link next : Link} {deeds : List Deed} {ms : Nat} {passes : Bool}
    (h : Moves link deeds ms passes next) (hnext : next.isUp = true) : link.isUp = true := by
  rw [Link.isUp_iff] at hnext ⊢
  exact fun hleft => hnext (h.left_of hleft)

/-- Moves leave nothing due. -/
theorem Moves.steady {link next : Link} {deeds : List Deed} {ms : Nat} {passes : Bool}
    (h : Moves link deeds ms passes next) (hsteady : link.Steady) : next.Steady where
  patience := by
    intro hnext
    obtain ⟨hstage, -, hkept⟩ := h.awaits_of hnext
    exact hkept (hsteady.patience hstage)
  silence := by
    have hsilence := hsteady.silence
    clear hsteady
    induction h with
    | told => exact hsilence
    | heard =>
      intro _
      simp [Link.heard, silenceLimit]
    | passed link sink =>
      exact fun hnext => hsilence (Moves.isUp_of (.passed link sink) hnext)
    | arrived link arrivals =>
      exact fun hnext => hsilence (Moves.isUp_of (.arrived link arrivals) hnext)
    | severed link error =>
      exact fun hnext => hsilence (Moves.isUp_of (.severed link error) hnext)
    | elapsed link ms =>
      intro hnext
      have hlink := Moves.isUp_of (.elapsed link ms) hnext
      rcases link.stage_elapse ms with ⟨hlater, -⟩ | hleft
      · rw [hlater]
        exact Link.heard_of_isUp hlink hnext
      · exact absurd hleft (Link.isUp_iff.mp hnext)
    | both h hthen ih ihthen => exact ihthen (ih hsilence)

/-- A connection that lasts has a worker with some patience, and it begins like any other. -/
theorem begun_of_connect {credentials : Credentials} {assignment : Assignment}
    {old : Option Session} {session : Session}
    (h : (Session.connect credentials assignment old).session = some session) :
    0 < assignment.wait ∧ session = Session.begin credentials assignment := by
  by_cases hwait : 0 < assignment.wait
  · rw [connect_of_pos hwait] at h
    exact ⟨hwait, (Option.some.inj h).symm⟩
  · rw [connect_of_zero (by omega)] at h
    cases h

/-- Nothing is ever left due on a connection. -/
theorem steady_of_life {credentials : Credentials} {assignment : Assignment} {history : History}
    {session : Session} (h : Life credentials assignment history session) :
    session.link.Steady := by
  induction h with
  | connected hconnected =>
    obtain ⟨hwait, rfl⟩ := begun_of_connect hconnected
    refine ⟨fun _ => ?_, fun _ => by simp [link_begin, silenceLimit]⟩
    simp only [link_begin, Link.patience]
    omega
  | acted action hlife hnext ih =>
    obtain ⟨⟨deeds, passes, hmoves, -⟩, -⟩ := Session.effect_act hnext
    exact hmoves.steady ih

namespace Session

/-- A session whose channels are gone if its transport is. -/
def Closed (session : Session) : Prop :=
  session.link.isUp = false → ∀ channel ∈ session.channels, channel.isOpen = false

section Closed

variable {session : Session}

/-- What the worker does lets the channels vanish with the transport. -/
theorem closed_absorb (session : Session) (done : List Deed × Link) :
    (session.absorb done).2.Closed := by
  intro hdown channel hchannel
  have hlink : done.2.isUp = false := hdown
  rw [channels_absorb_eq] at hchannel
  obtain ⟨before, -, rfl⟩ := List.mem_map.mp hchannel
  simp only [reached, hlink, Bool.false_eq_true, if_false, Channel.isOpen_vanish]

/-- Listening opens no channel again. -/
theorem Closed.listen (h : session.Closed) (name : String) : (session.listen name).2.Closed := by
  cases hchannel : session.channel? name with
  | none => simpa only [Session.listen, hchannel] using h
  | some channel =>
    rw [listen_eq hchannel]
    intro hdown changed hchanged
    obtain ⟨other, hother, rfl⟩ := List.mem_map.mp hchanged
    split
    · exact h hdown channel (mem_of_channel? hchannel).1
    · exact h hdown other hother

/-- What arrives on a channel leaves no channel open on a transport that is down. -/
theorem closed_arrive (h : session.Closed) (channel : Channel)
    (arrivals : List Exchange.Arrival) : (session.arrive channel arrivals).2.Closed := by
  unfold arrive
  split
  · exact closed_absorb _ _
  · exact h

/-- Closing a channel leaves none open on a transport that is down. -/
theorem closed_closeChannel (h : session.Closed) (channel : Channel) :
    (session.closeChannel channel).2.Closed := by
  have hended : (session.endInput channel).2.Closed := closed_arrive h channel _
  intro hdown changed hchanged
  obtain ⟨other, hother, rfl⟩ := List.mem_map.mp hchanged
  have hgone := hended hdown other hother
  split
  · exact other.isOpen_vanish
  · exact hgone

/-- A message on a channel leaves channels that are gone if the transport is, if its effect does. -/
theorem closed_onChannel (h : session.Closed) {name : String}
    {effect : Session → Channel → List Event × Session}
    (heffect : ∀ channel, (effect session.heard channel).2.Closed) {next : Session}
    (hnext : (session.onChannel name effect).session = some next) : next.Closed := by
  rcases session.onChannel_cases name effect with hact | ⟨-, hact⟩ | ⟨-, -, channel, hact⟩
  · rw [hact] at hnext
    obtain rfl := Option.some.inj hnext
    exact h
  · rw [hact] at hnext
    obtain rfl := Option.some.inj hnext
    exact h.listen name
  · rw [hact] at hnext
    obtain rfl := Option.some.inj hnext
    exact (heffect channel).listen name

/-- Handing over a channel leaves none open on a transport that goes down by it. -/
theorem closed_handOver (hup : session.link.isUp = true) (before : Handover) :
    (session.handOver before).2.Closed := by
  unfold handOver
  split
  · intro hdown
    simp [hup] at hdown
  · exact closed_absorb _ _

/-- Whatever a client does, its channels are gone if the transport is. -/
theorem closed_act {action : Action} {next : Session} (h : session.Closed)
    (hnext : (session.act action).session = some next) : next.Closed := by
  have hheard : session.heard.Closed := h
  cases action with
  | connect =>
    obtain rfl := Option.some.inj hnext
    exact h
  | password username password =>
    simp only [act] at hnext
    rcases session.tryPassword_cases username password with hact | hact | hact | hact <;>
      rw [hact] at hnext <;> obtain rfl := Option.some.inj hnext
    · exact h
    · exact h
    · exact h
    · exact closed_absorb _ _
  | askMethods username =>
    simp only [act] at hnext
    rcases session.askMethods_cases with hact | hact | hact | hact <;>
      rw [hact] at hnext <;> obtain rfl := Option.some.inj hnext
    · exact h
    · exact h
    · exact h
    · exact closed_absorb _ _
  | openChannel name request =>
    simp only [act] at hnext
    rcases session.openChannel_cases name request with hact | hact | ⟨events, -, hact⟩ |
      ⟨hup, -, -, hact⟩
    · rw [hact] at hnext
      obtain rfl := Option.some.inj hnext
      exact h
    · rw [hact] at hnext
      obtain rfl := Option.some.inj hnext
      exact closed_absorb _ _
    · rw [hact] at hnext
      obtain rfl := Option.some.inj hnext
      exact h
    · rw [hact, request_session] at hnext
      obtain rfl := Option.some.inj hnext
      have hopening : (session.heard.opening name).link.isUp = true := hup
      exact (closed_handOver hopening _).listen name
  | send name bytes => exact closed_onChannel h (fun _ => closed_arrive hheard _ _) hnext
  | sendExtended name bytes => exact closed_onChannel h (fun _ => hheard) hnext
  | endInput name => exact closed_onChannel h (fun _ => closed_arrive hheard _ _) hnext
  | closeChannel name => exact closed_onChannel h (fun _ => closed_closeChannel hheard _) hnext
  | wait ms =>
    obtain rfl := Option.some.inj hnext
    exact closed_absorb _ _
  | disconnect =>
    obtain rfl := Option.some.inj hnext
    exact closed_absorb _ _
  | drop => cases hnext

end Closed

/-- Time changes the link of a session, and lets the channels vanish with the transport. -/
theorem elapse_eq (session : Session) (ms : Nat) :
    (session.elapse ms).2 =
      { session with
        link := (session.link.elapse ms).2
        channels :=
          if (session.link.elapse ms).2.isUp then session.channels
          else session.channels.map Channel.vanish } := by
  have hsent := (silent_elapse session.link ms).sent_eq
  have hreached : session.reached (session.link.elapse ms) = fun channel =>
      if (session.link.elapse ms).2.isUp then channel else channel.vanish := by
    funext channel
    simp [reached, Channel.receive, hsent]
  have hchannels := channels_absorb_eq session (session.link.elapse ms)
  have hrest : (session.elapse ms).2 =
      { session with
        link := (session.link.elapse ms).2
        channels := (session.absorb (session.link.elapse ms)).2.channels } := rfl
  rw [hrest, hchannels, hreached]
  cases (session.link.elapse ms).2.isUp with
  | true => simp
  | false => rfl

/-- No time at all changes nothing, where nothing is due. -/
theorem elapse_zero {session : Session} (h : session.link.Steady) (hclosed : session.Closed) :
    (session.elapse 0).2 = session := by
  rw [elapse_eq, h.elapse_zero]
  cases hup : session.link.isUp with
  | true => rfl
  | false =>
    have hgone : session.channels.map Channel.vanish = session.channels.map id :=
      List.map_congr_left fun channel hchannel =>
        Channel.vanish_eq_self (hclosed hup channel hchannel)
    simp [hgone]

/-- Time may pass on a session in two portions as well as in one. -/
theorem elapse_add (session : Session) (first second : Nat) :
    (session.elapse (first + second)).2 = ((session.elapse first).2.elapse second).2 := by
  have hlink : (session.link.elapse (first + second)).2 =
      ((session.link.elapse first).2.elapse second).2 := by
    rw [Link.elapse_add]
  rw [elapse_eq, elapse_eq session first, elapse_eq, hlink]
  cases hfirst : (session.link.elapse first).2.isUp with
  | true => simp
  | false =>
    have hstage : (session.link.elapse first).2.stage = .left := by
      by_contra hup
      rw [Link.isUp_iff.mpr hup] at hfirst
      cases hfirst
    have hdown : ((session.link.elapse first).2.elapse second).2.isUp = false := by
      rw [Link.elapse_of_left hstage]
      exact hfirst
    simp [hdown, Function.comp_def]

end Session

/-- The channels of a connection are gone if its transport is. -/
theorem closed_of_life {credentials : Credentials} {assignment : Assignment} {history : History}
    {session : Session} (h : Life credentials assignment history session) : session.Closed := by
  induction h with
  | connected hconnected =>
    obtain ⟨-, rfl⟩ := begun_of_connect hconnected
    intro _ channel hchannel
    cases hchannel
  | acted action hlife hnext ih => exact Session.closed_act ih hnext

namespace Session

/-! ## A client by itself -/

/-- A client that does its actions by itself, with some time before each: the reply to each, and the
state of its transport after it. -/
def play (credentials : Credentials) (assignment : Assignment) :
    Option Session → List (Nat × Action) → List (Reply × Option TransportState)
  | _, [] => []
  | session, (ms, action) :: schedule =>
    let outcome :=
      perform credentials assignment action (session.map fun session => (session.elapse ms).2)
    (outcome.reply, outcome.session.map transport) ::
      play credentials assignment outcome.session schedule

end Session

/-- What a client sees of a course: the replies to its own steps, and the state of its transport
after each. -/
def seenBy (client : Client) (course : List (Step × Answer)) :
    List (Reply × Option TransportState) :=
  (course.filter fun entry => entry.1.client = client).map fun entry =>
    (entry.2.reply, entry.2.transport)

namespace Server

/-- The schedule of a client in a course of steps: its actions, each with the time that the steps of
the others have taken since the one before. -/
def schedule (server : Server) (client : Client) (waited : Nat) : List Step → List (Nat × Action)
  | [] => []
  | first :: rest =>
    if first.client = client then
      (waited, first.action) :: (server.step first).2.schedule client 0 rest
    else
      (server.step first).2.schedule client (waited + (server.outcome first).duration) rest

/-- A course in which the other clients do nothing but wait for as long as their steps took. -/
def withOthersWaiting (server : Server) (client : Client) : List Step → List Step
  | [] => []
  | first :: rest =>
    (if first.client = client then first
      else ⟨first.client, .wait (server.outcome first).duration⟩) ::
      (server.step first).2.withOthersWaiting client rest

section Steps

variable {server : Server} {client : Client} {step : Step}

/-- A step leaves to its client what its action comes to. -/
theorem session?_step_self (server : Server) (step : Step) :
    (server.step step).2.session? step.client = (server.outcome step).session := by
  have hothers : ((server.others step.client).map fun entry =>
      (entry.1, (entry.2.elapse (server.outcome step).duration).2)).find?
        (fun entry => entry.1 == step.client) = none := by
    apply List.find?_eq_none.mpr
    intro entry hentry
    obtain ⟨other, hother, rfl⟩ := List.mem_map.mp hentry
    simpa [others] using (List.mem_filter.mp hother).2
  unfold session? Server.step
  simp only [List.map_map, Function.comp_def, List.find?_append, hothers, Option.none_or]
  cases (server.outcome step).session <;> simp

/-- To the other clients a step is the time that it takes. -/
theorem session?_step_other (h : step.client ≠ client) :
    (server.step step).2.session? client =
      (server.session? client).map fun session =>
        (session.elapse (server.outcome step).duration).2 := by
  have hself : (((server.outcome step).session.toList.map fun session =>
      (step.client, session)).find? fun entry => entry.1 == client) = none := by
    cases (server.outcome step).session <;> simp [h]
  have hothers : (server.others step.client).find? (fun entry => entry.1 == client) =
      server.sessions.find? (fun entry => entry.1 == client) := by
    unfold others
    rw [List.find?_filter]
    congr 1
    funext entry
    by_cases hentry : entry.1 = client
    · simp [hentry, Ne.symm h]
    · simp [hentry]
  unfold session? Server.step
  simp only [List.map_map, Function.comp_def, List.find?_append, hself, Option.or_none,
    List.find?_map, hothers, Option.map_map]

/-- A wait takes as long as it says. -/
theorem duration_wait (server : Server) (client : Client) (ms : Nat) :
    (server.outcome ⟨client, .wait ms⟩).duration = ms := by
  unfold outcome
  cases server.session? client <;> rfl

end Steps

/-- What has passed on a session that a server keeps is all that is due. -/
theorem elapse_zero_of_lives {server : Server} (h : server.Lives) {client : Client}
    {session : Session} (hsession : server.session? client = some session) :
    (session.elapse 0).2 = session := by
  obtain ⟨history, hlife⟩ := h _ _ (mem_of_session? hsession)
  exact Session.elapse_zero (steady_of_life hlife) (closed_of_life hlife)

/-- What a client sees of a course is what it sees by itself, with its own schedule. -/
theorem seenBy_eq_play {server : Server} (hlives : server.Lives) {client : Client} {waited : Nat}
    {before : Option Session}
    (hbefore : server.session? client = before.map fun session => (session.elapse waited).2)
    (steps : List Step) :
    seenBy client (steps.zip (server.steps steps).1) =
      Session.play server.credentials (server.assignment client) before
        (server.schedule client waited steps) := by
  induction steps generalizing server waited before with
  | nil => rfl
  | cons first rest ih =>
    have hnext := lives_step hlives first
    by_cases hclient : first.client = client
    · obtain ⟨name, action⟩ := first
      obtain rfl : name = client := hclient
      have hself := session?_step_self server ⟨name, action⟩
      have hsame : (server.outcome ⟨name, action⟩).session =
          (server.outcome ⟨name, action⟩).session.map fun session => (session.elapse 0).2 := by
        cases hsession : (server.outcome ⟨name, action⟩).session with
        | none => rfl
        | some session =>
          rw [hsession] at hself
          exact congrArg some (elapse_zero_of_lives hnext hself).symm
      have hrest := ih hnext (hself.trans hsame)
      have houtcome : Session.perform server.credentials (server.assignment name) action
          (before.map fun session => (session.elapse waited).2) =
            server.outcome ⟨name, action⟩ := by
        rw [← hbefore]
        rfl
      simp only [seenBy] at hrest ⊢
      simp only [steps, List.zip_cons_cons, List.filter_cons, decide_true, if_true, List.map_cons,
        hrest, schedule, Session.play, houtcome]
      rfl
    · have hother := @session?_step_other server client first hclient
      have hadd : (server.step first).2.session? client =
          before.map fun session =>
            (session.elapse (waited + (server.outcome first).duration)).2 := by
        rw [hother, hbefore, Option.map_map]
        simp only [Session.elapse_add]
        rfl
      have hrest := ih hnext hadd
      simp only [seenBy] at hrest ⊢
      simp only [steps, List.zip_cons_cons, List.filter_cons, hclient, decide_false,
        Bool.false_eq_true, if_false, hrest, schedule]
      rfl

/-- When the others wait instead of what they do, the schedule of a client stays what it is. -/
theorem schedule_withOthersWaiting (server other : Server) (client : Client) (waited : Nat)
    (steps : List Step) :
    other.schedule client waited (server.withOthersWaiting client steps) =
      server.schedule client waited steps := by
  induction steps generalizing server other waited with
  | nil => rfl
  | cons first rest ih =>
    by_cases hclient : first.client = client
    · simp only [withOthersWaiting, schedule, hclient, if_true, ih]
    · simp only [withOthersWaiting, schedule, hclient, if_false, duration_wait, ih]

end Server

/-- Every step is answered. What a client sees of any course of steps it sees as well when the
others do nothing but wait for as long as their steps took. More than that, it sees the same in any
two courses in which it does the same after the same times: whatever the others do, and however many
they are, they reach it as time that passes and as nothing else. -/
theorem others_are_only_time (address : String) (context : Context) (steps : List Step)
    (client : Client) :
    let server := Server.start address context
    let seen := fun steps => seenBy client (steps.zip (server.steps steps).1)
    (∀ course, (server.steps course).1.length = course.length) ∧
    seen steps = seen (server.withOthersWaiting client steps) ∧
    ∀ others, server.schedule client 0 others = server.schedule client 0 steps →
      seen others = seen steps := by
  intro server seen
  have hlives : server.Lives := fun client session hmem => by cases hmem
  have hplay (course : List Step) : seen course =
      Session.play server.credentials (server.assignment client) none
        (server.schedule client 0 course) :=
    Server.seenBy_eq_play hlives rfl course
  refine ⟨server.length_steps, ?_, ?_⟩
  · rw [hplay, hplay, Server.schedule_withOthersWaiting]
  · intro others hsame
    rw [hplay, hplay, hsame]

end PongFixture.Ssh
