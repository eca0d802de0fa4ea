import PongFixture.Proofs.Ssh.Account

/-!
# The one channel that is served

A client may open many session channels, in any mixture with requests that are refused, and use them
as it likes. The server serves the first of them, and an account of the history always comes out the
same (`only_first_channel_is_served`): on the first channel the greeting and a reply for every piece
of every message, and elsewhere nothing.

What carries this through a life is that the session goes with its account. An action that does not
reach the worker leaves that as it is; this is the case for all but the messages on the first
channel, and the end of its input ends the transport.
-/

set_option autoImplicit false

namespace PongFixture.Ssh

open Exchange (Arrival Round pieces pieceCount owed roundsOf sendingOf)

namespace Session

variable {account : Account} {session : Session} {name : String} {channel : Channel}

/-! ## Actions that do not reach the worker -/

/-- No chunk is reported while an answer is held back, and the session stays as its account has it.
-/
theorem Serves.holdBack (h : Serves account session) :
    chunkLines session.holdBack.1 = [] ∧ Serves account session.holdBack.2 := by
  have hfirst := h.elapse rejectionDelay
  have hsecond := hfirst.heard.elapse settlingTime
  refine ⟨?_, hsecond⟩
  have hlines : session.holdBack.1 = (session.elapse rejectionDelay).1 ++
      ((session.elapse rejectionDelay).2.heard.elapse settlingTime).1 := rfl
  have hquiet := (silent_elapse session.link rejectionDelay).lines_eq
  have hlater :=
    (silent_elapse (session.elapse rejectionDelay).2.heard.link settlingTime).lines_eq
  rw [hlines, chunkLines_append]
  exact congrArg₂ (· ++ ·) hquiet hlater

/-- An idle outcome with a session that goes on. -/
theorem Serves.idle (h : Serves account session) {outcome : Outcome}
    (hoctets : outcome.reply.octets = []) (hlines : chunkLines outcome.events = [])
    (hsession : outcome.session = some session) : Idle account outcome where
  octets_eq := hoctets
  lines_eq := hlines
  serves := by
    intro next hnext
    rw [hsession] at hnext
    obtain rfl := Option.some.inj hnext
    exact h

/-- Trying a password leaves the account as it is. -/
theorem Serves.tryPassword (h : Serves account session) (username password : String) :
    Idle account (session.tryPassword username password) := by
  have hreports : chunkLines (session.handler.onPassword username password).2 = [] :=
    chunkLines_reports fun line => mem_onPassword
  rcases session.tryPassword_cases username password with hact | hact | hact | hact
  · rw [hact]
    exact h.idle rfl rfl rfl
  · rw [hact]
    exact h.heard.idle rfl rfl rfl
  · rw [hact]
    have haccepted : Serves account { session.attempting with authenticated := true } :=
      h.of_same rfl rfl rfl rfl rfl
    exact haccepted.idle rfl hreports rfl
  · rw [hact]
    obtain ⟨hlines, hserves⟩ := h.attempting.holdBack
    refine hserves.idle rfl ?_ rfl
    rw [chunkLines_append, hreports, hlines]
    rfl

/-- Asking for the ways to authenticate leaves the account as it is. -/
theorem Serves.askMethods (h : Serves account session) : Idle account session.askMethods := by
  rcases session.askMethods_cases with hact | hact | hact | hact
  · rw [hact]
    exact h.idle rfl rfl rfl
  · rw [hact]
    exact h.heard.idle rfl rfl rfl
  · rw [hact]
    exact h.attempting.idle rfl rfl rfl
  · rw [hact]
    obtain ⟨hlines, hserves⟩ := h.heard.holdBack
    exact hserves.idle rfl hlines rfl

/-- A request for a channel that is not granted. -/
theorem Serves.refused (h : Serves account session) {name : String} {request : OpenRequest}
    (hrefused : (session.openChannel name request).reply.grants = false) :
    Idle account (session.openChannel name request) := by
  rcases session.openChannel_cases name request with hact | hact | ⟨events, hreports, hact⟩ |
    ⟨-, -, -, hact⟩
  · rw [hact]
    exact h.idle rfl rfl rfl
  · rw [hact]
    have hlines := (silent_sever session.link (some "early eof")).lines_eq
    exact (h.sever "early eof").idle rfl hlines rfl
  · rw [hact]
    exact h.heard.idle rfl (chunkLines_reports hreports) rfl
  · rw [hact] at hrefused
    cases hrefused

/-- A message whose effect does not reach the worker: no line stands in the log, and a transport
that is up stays so. -/
theorem Serves.onChannel (h : Serves account session)
    {effect : Session → Channel → List Event × Session}
    (hkeeps : ∀ channel, session.channel? name = some channel → session.link.isUp = true →
      (effect session.heard channel).1 = [] ∧
        Serves account (effect session.heard channel).2 ∧
        (effect session.heard channel).2.link = session.heard.link) :
    Idle account (session.onChannel name effect) ∧
      (session.onChannel name effect).events = [] ∧
      (session.onChannel name effect).isUp = session.link.isUp := by
  unfold Session.onChannel
  cases hchannel : session.channel? name with
  | none => exact ⟨h.idle rfl rfl rfl, rfl, rfl⟩
  | some channel =>
    cases hup : session.link.isUp with
    | false =>
      obtain ⟨hnothing, hserves⟩ := h.listen name
      refine ⟨hserves.idle hnothing rfl rfl, rfl, ?_⟩
      simpa [Outcome.isUp] using hup
    | true =>
      obtain ⟨hnone, hkept, hlink⟩ := hkeeps channel hchannel hup
      obtain ⟨hnothing, hserves⟩ := hkept.listen name
      have hlines : chunkLines (effect session.heard channel).1 = [] := by
        rw [hnone]
        rfl
      refine ⟨hserves.idle hnothing hlines rfl, hnone, ?_⟩
      simp only [Outcome.isUp, if_true, Option.any_some, link_listen, hlink]
      exact hup

/-! ## Actions that reach the worker -/

/-- A client hears on the served channel what deeds of the worker send. -/
theorem Matches.reach (h : Matches account session)
    (hunheard : ∀ other ∈ session.channels, other.unheard = [])
    (hchannel : session.channel? name = some channel)
    (hserved : session.handler.handover.delivered = some channel.id) (done : List Deed × Link)
    (hup : done.2.isUp = true → session.link.isUp = true) :
    (((session.absorb done).2.listen name).1).received = sentBy done.1 ∧
      Matches account ((session.absorb done).2.listen name).2 ∧
      (∀ other ∈ ((session.absorb done).2.listen name).2.channels, other.unheard = []) ∧
      ((session.absorb done).2.listen name).2.link = done.2 := by
  have hmem := (mem_of_channel? hchannel).1
  have hfound : (session.absorb done).2.channel? name = some (session.reached done channel) := by
    rw [channel?_absorb, hchannel]
    rfl
  refine ⟨?_, (h.absorb done hup).listen name, ?_, link_listen _ _⟩
  · rw [listen_eq hfound, unheard_reached, if_pos hserved, hunheard channel hmem,
      List.nil_append]
  · apply unheard_listen hfound
    intro changed hchanged hid
    rw [channels_absorb_eq] at hchanged
    obtain ⟨other, hother, rfl⟩ := List.mem_map.mp hchanged
    rw [id_reached, id_reached] at hid
    have hunserved : session.handler.handover.delivered ≠ some other.id := by
      rw [hserved]
      intro hsame
      exact hid (Option.some.inj hsame).symm
    rw [unheard_reached, if_neg hunserved, hunheard other hother, List.nil_append]

/-- Opening a channel adds it to the account. -/
theorem Serves.opening (h : Serves account session) (hbalanced : account.Balanced) (name : String) :
    Matches (account.opening name) (session.opening name) where
  ids := by
    simp only [Session.opening, List.map_cons, h.ids, List.range_succ, List.reverse_append]
    rfl
  names := by
    have hnames := h.names
    unfold Account.names at hnames
    simp only [Session.opening, List.map_cons, hnames, Account.names, Account.opening]
    cases hfirst : account.first with
    | none => simp [Channel.new, (hbalanced.begins hfirst).1]
    | some first => simp [Channel.new]
  handover := by
    have hhandover := h.handover
    have hpass : (session.opening name).handler.handover =
        session.handler.handover.pass session.opened := rfl
    rw [hpass]
    cases hfirst : account.first with
    | none =>
      have hnone := (h.toMatches.unopened hfirst (hbalanced.begins hfirst).1).2
      rw [hfirst] at hhandover
      simp only [Account.opening, hfirst, hhandover, hnone]
      rfl
    | some first =>
      rw [hfirst] at hhandover
      simp only [Account.opening, hfirst, hhandover]
      rfl
  isOpen := by
    intro hup channel hchannel hid
    rcases List.mem_cons.mp hchannel with rfl | hbefore
    · rfl
    · exact h.isOpen hup channel hbefore hid

/-- Nothing is left to be heard when a channel has been opened. -/
theorem Serves.unheard_opening (h : Serves account session) (name : String) :
    ∀ other ∈ (session.opening name).channels, other.unheard = [] := by
  intro other hother
  rcases List.mem_cons.mp hother with rfl | hbefore
  · rfl
  · exact h.unheard other hbefore

/-- A later channel is not handed over, and nothing is heard on it. -/
theorem Serves.handOver_later (h : Serves account session) (hbalanced : account.Balanced)
    (hup : session.link.isUp = true) (name : String) {first : String}
    (hfirst : account.first = some first) :
    let done := (session.opening name).handOver session.handler.handover
    chunkLines done.1 = [] ∧ (done.2.listen name).1.received = [] ∧
      Serves (account.opening name) (done.2.listen name).2 ∧
      (done.2.listen name).2.link.isUp = true := by
  intro done
  have hmatches := h.opening hbalanced name
  have hsame : session.handler.handover.delivered =
      (session.opening name).handler.handover.delivered := by
    rw [h.handover, hmatches.handover, Account.opening, hfirst]
  have hdone : done = ([], session.opening name) := if_pos hsame
  have hserves : Serves (account.opening name) (session.opening name) := by
    refine ⟨hmatches, h.unheard_opening name, ?_, h.farewell⟩
    intro _
    have hkept : (account.opening name).stage = account.stage := by
      simp only [Account.stage, Account.opening, hfirst]
    rw [hkept]
    exact h.stage hup
  obtain ⟨hnothing, hlistened⟩ := hserves.listen name
  rw [hdone]
  refine ⟨rfl, hnothing, hlistened, ?_⟩
  rw [link_listen]
  exact hup

/-- The first channel is handed over, and the client hears the greeting on it. -/
theorem Serves.handOver_first (h : Serves account session) (hbalanced : account.Balanced)
    (hup : session.link.isUp = true) (name : String) (hfirst : account.first = none) :
    let done := (session.opening name).handOver session.handler.handover
    chunkLines done.1 = [] ∧ (done.2.listen name).1.received = banner.greeting ∧
      Serves (account.opening name) (done.2.listen name).2 ∧
      (done.2.listen name).2.link.isUp = true := by
  intro done
  have hmatches := h.opening hbalanced name
  obtain ⟨hothers, hmessages⟩ := hbalanced.begins hfirst
  have hdiffers : session.handler.handover.delivered ≠
      (session.opening name).handler.handover.delivered := by
    rw [h.handover, hmatches.handover, Account.opening, hfirst]
    simp [Handover.new]
  have hawaits : session.link.stage = .awaitingChannel := by
    rw [h.stage hup, Account.stage, hfirst]
  have hgreeted : (session.opening name).link.happen (.channelPassed .willing) =
      (deedsOf (sendingOf banner.greeting), session.link.afterReplies 0) :=
    Link.happen_passed hawaits
  have hdone : done = (session.opening name).absorb
      (deedsOf (sendingOf banner.greeting), session.link.afterReplies 0) := by
    rw [← hgreeted]
    exact if_neg hdiffers
  have hchannel : (session.opening name).channel? name = some (.new name session.opened) := by
    unfold channel? Session.opening
    rw [List.find?_cons_of_pos]
    simp [Channel.new]
  have hserved : (session.opening name).handler.handover.delivered =
      some (Channel.new name session.opened).id := by
    have hid : (Channel.new name session.opened).id = 0 :=
      (h.toMatches.unopened hfirst hothers).2
    rw [hmatches.handover, Account.opening, hfirst, hid]
  have hlines : chunkLines (eventsOf (deedsOf (sendingOf banner.greeting))) = [] := by
    have hsending := Exchange.sendingOf_sending banner.greeting
    rw [eventsOf_deedsOf, hsending.eventsOf_eq_nil]
    rfl
  obtain ⟨hheard, hlistened, hrest, hlink⟩ :=
    hmatches.reach (h.unheard_opening name) hchannel hserved _ fun _ => hup
  rw [hdone]
  refine ⟨hlines, ?_, ⟨hlistened, hrest, ?_, ?_⟩, ?_⟩
  · rw [hheard, sentBy_deedsOf, Exchange.sent_sendingOf]
  · intro _
    rw [hlink, Account.stage, Account.opening, hfirst]
    simp only [hmessages]
    rfl
  · intro _
    rw [hlink]
    exact h.farewell hup
  · rw [hlink]
    rfl

/-- On a channel that is granted the greeting is heard if it is the first, and nothing if not. -/
theorem Serves.granted (h : Serves account session) (hbalanced : account.Balanced)
    (hup : session.link.isUp = true) (name : String) :
    ∃ hearing events next,
      session.request name .session =
        ⟨.opened .granted (some hearing), events, 0, some next⟩ ∧
      hearing.received = (if account.first = none then banner.greeting else []) ∧
      chunkLines events = [] ∧ Serves (account.opening name) next ∧ next.link.isUp = true := by
  have hreports : chunkLines (session.handler.onOpen .session session.opened).2.1 = [] :=
    chunkLines_reports fun line => mem_onOpen
  rw [request_session]
  refine ⟨_, _, _, rfl, ?_⟩
  rw [chunkLines_append, hreports, List.nil_append]
  cases hfirst : account.first with
  | none =>
    obtain ⟨hlines, hheard, hserves, hnext⟩ := h.handOver_first hbalanced hup name hfirst
    exact ⟨hheard, hlines, hserves, hnext⟩
  | some first =>
    obtain ⟨hlines, hheard, hserves, hnext⟩ := h.handOver_later hbalanced hup name hfirst
    exact ⟨hheard, hlines, hserves, hnext⟩

/-- The first channel is the one that the worker serves, and it is open while the transport is
up. -/
theorem Serves.arrive_first (h : Serves account session) (hup : session.link.isUp = true)
    {first : String} (hfirst : account.first = some first) (hmem : channel ∈ session.channels)
    (hid : channel.id = 0) (arrivals : List Arrival) :
    session.arrive channel arrivals = session.happen (.arrived arrivals) := by
  have hopen := h.isOpen hup channel hmem hid
  have hserves : session.serves channel = true := by
    unfold serves
    rw [h.handover, hfirst, hid]
    rfl
  unfold arrive
  rw [hserves, hopen]
  rfl

/-- What comes in on another channel does not arrive. -/
theorem Serves.arrive_later (h : Serves account session) (hid : channel.id ≠ 0)
    (arrivals : List Arrival) : session.arrive channel arrivals = ([], session) := by
  have hserves : session.serves channel = false := by
    unfold serves
    rw [h.handover]
    cases account.first with
    | none => rfl
    | some first => simpa using Ne.symm hid
  unfold arrive
  rw [hserves]
  rfl

/-- A message on the first channel is answered piece by piece, and every piece is reported. -/
theorem Serves.answered (h : Serves account session) (hup : session.link.isUp = true)
    (hname : account.isFirst name) (bytes : Bytes) :
    ∃ hearing next,
      session.onChannel name (deliver bytes) =
        ⟨.sent true hearing, (pieces bytes).map received, 0, some next⟩ ∧
      hearing.received = (List.replicate (pieceCount bytes.length) banner.reply).flatten ∧
      Serves (account.noting name bytes) next ∧ next.link.isUp = true := by
  obtain ⟨channel, hchannel, hmem, hid⟩ := h.toMatches.channel?_of_isFirst hname
  have hheard := h.heard
  have hstage : session.heard.link.stage =
      .serving (.waiting .new .willing (owed account.messages)) := by
    rw [hheard.stage hup, Account.stage, hname.1]
  have hserved : session.heard.handler.handover.delivered = some channel.id := by
    rw [hheard.handover, hname.1, hid]
  have hlines : eventsOf (deedsOf ((roundsOf banner bytes).flatMap Round.acts)) =
      (pieces bytes).map received := by
    rw [eventsOf_deedsOf, Exchange.eventsOf_rounds received (Exchange.roundsOf_sends banner bytes),
      Exchange.roundsOf_chunks]
  let done := (deedsOf ((roundsOf banner bytes).flatMap Round.acts),
    session.heard.link.afterReplies (owed account.messages + pieceCount bytes.length))
  have heffect : deliver bytes session.heard channel =
      ((pieces bytes).map received, (session.heard.absorb done).2) := by
    unfold deliver
    rw [hheard.arrive_first hup hname.1 hmem hid, happen, Link.happen_data hstage, ← hlines]
    rfl
  obtain ⟨hreplies, hlistened, hrest, hlink⟩ :=
    hheard.toMatches.reach hheard.unheard hchannel hserved done fun _ => hup
  have hnoting : account.noting name bytes =
      { account with messages := account.messages ++ [bytes] } := if_pos hname
  unfold Session.onChannel
  rw [hchannel]
  simp only [hup, if_true, heffect]
  refine ⟨_, _, rfl, ?_, ⟨⟨hlistened.ids, ?_, ?_, hlistened.isOpen⟩, hrest, ?_, ?_⟩, ?_⟩
  · rw [hreplies, sentBy_deedsOf, Exchange.sent_roundsOf]
  · rw [hnoting]
    exact hlistened.names
  · rw [hnoting]
    exact hlistened.handover
  · intro _
    rw [hlink, hnoting]
    simp only [Account.stage, hname.1, Exchange.owed_append]
    rfl
  · intro _
    rw [hlink]
    exact h.farewell hup
  · rw [hlink]
    rfl

/-- The lines of a worker whose input has ended after so many replies. -/
def endingLines (peer : String) (replies : Nat) : List Event :=
  [⟨.trace, .exchange, "Connection closed by peer", [.plain "replies" (toString replies)]⟩,
    ⟨.debug, .secure, "SSH transport closed", [.plain "peer" peer]⟩]

/-- The end of the input of the first channel ends the transport, with a farewell. -/
theorem Serves.endInput_first (h : Serves account session) (hup : session.link.isUp = true)
    {first : String} (hfirst : account.first = some first) (hmem : channel ∈ session.channels)
    (hid : channel.id = 0) :
    (session.endInput channel).1 =
        endingLines session.link.assignment.peer (owed account.messages) ∧
      Serves account (session.endInput channel).2 ∧
      (session.endInput channel).2.link.stage = .left ∧
      (session.endInput channel).2.link.farewell = some Ssh.farewell := by
  have hstage : session.link.stage =
      .serving (.waiting .new .willing (owed account.messages)) := by
    rw [h.stage hup, Account.stage, hfirst]
  have hdone := Link.happen_end hstage (h.farewell hup)
  have hsilent := (silent_ended Exchange.chunkSize (owed account.messages)).append
    (silent_leave session.link.assignment none)
  unfold endInput
  rw [h.arrive_first hup hfirst hmem hid, happen, hdone]
  refine ⟨rfl, h.absorb hsilent ?_, rfl, rfl⟩
  intro hdown
  cases hdown

/-- A channel may vanish, but for the first on a transport that is up. -/
theorem Serves.vanish (h : Serves account session) (channel : Channel)
    (hid : session.link.isUp = true → channel.id ≠ 0) :
    Serves account { session with
      channels := session.channels.map fun other =>
        if other.id = channel.id then other.vanish else other } := by
  refine ⟨h.toMatches.of_map _ rfl rfl rfl ?_ ?_, ?_, h.stage, h.farewell⟩
  · intro other _
    split <;> simp
  · intro hup
    refine ⟨hup, ?_⟩
    intro other _ hzero
    have hother : other.id ≠ channel.id := by
      rw [hzero]
      exact (hid hup).symm
    rw [if_neg hother]
  · intro changed hchanged
    obtain ⟨other, hother, rfl⟩ := List.mem_map.mp hchanged
    split <;> simp [h.unheard other hother]

/-- Both ways to end the input are actions on the channel of a name. -/
theorem act_of_end (session : Session) {action : Action}
    (haction : action = .endInput name ∨ action = .closeChannel name) :
    ∃ effect, (effect = endInput ∨ effect = closeChannel) ∧
      session.act action = session.onChannel name effect := by
  rcases haction with rfl | rfl
  · exact ⟨endInput, .inl rfl, rfl⟩
  · exact ⟨closeChannel, .inr rfl, rfl⟩

/-- The end of the first channel, whether its input ends or it is closed. -/
theorem Serves.ended (h : Serves account session) (hup : session.link.isUp = true)
    (hname : account.isFirst name)
    {effect : Session → Channel → List Event × Session}
    (heffect : effect = endInput ∨ effect = closeChannel) :
    ∃ hearing next,
      session.onChannel name effect =
        ⟨.sent true hearing,
          endingLines session.link.assignment.peer (owed account.messages), 0, some next⟩ ∧
      hearing.received = [] ∧ Serves account next ∧ next.link.stage = .left ∧
      next.link.farewell = some Ssh.farewell := by
  obtain ⟨channel, hchannel, hmem, hid⟩ := h.toMatches.channel?_of_isFirst hname
  obtain ⟨hlines, hserves, hleft, hfarewell⟩ := h.heard.endInput_first hup hname.1 hmem hid
  have hdone : (effect session.heard channel).1 =
      endingLines session.link.assignment.peer (owed account.messages) ∧
      Serves account (effect session.heard channel).2 ∧
      (effect session.heard channel).2.link = (session.heard.endInput channel).2.link := by
    rcases heffect with rfl | rfl
    · exact ⟨hlines, hserves, rfl⟩
    · have hdown : (session.heard.endInput channel).2.link.isUp = true → channel.id ≠ 0 := by
        intro hstill
        exact absurd hleft (Link.isUp_iff.mp hstill)
      exact ⟨hlines, hserves.vanish channel hdown, rfl⟩
  obtain ⟨hevents, hkept, hlink⟩ := hdone
  obtain ⟨hnothing, hlistened⟩ := hkept.listen name
  unfold Session.onChannel
  rw [hchannel]
  simp only [hup, if_true, hevents]
  refine ⟨_, _, rfl, hnothing, hlistened, ?_, ?_⟩
  · rw [link_listen, hlink, hleft]
  · rw [link_listen, hlink, hfarewell]

/-- A message on another channel, and the end of another channel, do not reach the worker. -/
theorem Serves.elsewhere (h : Serves account session) (hbalanced : account.Balanced)
    (hname : session.link.isUp = true → ¬ account.isFirst name)
    {effect : Session → Channel → List Event × Session}
    (heffect : (∃ bytes, effect = deliver bytes) ∨ effect = endInput ∨ effect = closeChannel) :
    Idle account (session.onChannel name effect) ∧
      (session.onChannel name effect).events = [] ∧
      (session.onChannel name effect).isUp = session.link.isUp := by
  apply h.onChannel
  intro channel hchannel hup
  have hfirst := h.toMatches.isFirst_iff (fun hnone => (hbalanced.begins hnone).1) hchannel
  have hid : channel.id ≠ 0 := fun hzero => hname hup (hfirst.mpr hzero)
  have harrive := h.heard.arrive_later hid
  rcases heffect with ⟨bytes, rfl⟩ | rfl | rfl
  · rw [deliver, harrive]
    exact ⟨rfl, h.heard, rfl⟩
  · rw [endInput, harrive]
    exact ⟨rfl, h.heard, rfl⟩
  · rw [closeChannel, endInput, harrive]
    exact ⟨rfl, h.heard.vanish channel fun _ => hid, rfl⟩

/-- Extended data reaches nobody, and nothing is reported of it. -/
theorem Serves.extended (h : Serves account session) (name : String) :
    Idle account (session.onChannel name fun session _ => ([], session)) ∧
      (session.onChannel name fun session _ => ([], session)).events = [] ∧
      (session.onChannel name fun session _ => ([], session)).isUp = session.link.isUp := by
  apply h.onChannel
  intro channel _ _
  exact ⟨rfl, h.heard, rfl⟩

/-- Only on a transport that is up a message goes out. -/
theorem isUp_of_isSent {effect : Session → Channel → List Event × Session}
    (h : (session.onChannel name effect).reply.isSent = true) : session.link.isUp = true := by
  rcases session.onChannel_cases name effect with hact | ⟨-, hact⟩ | ⟨-, hup, -⟩
  · rw [hact] at h
    cases h
  · rw [hact] at h
    cases h
  · exact hup

end Session

/-! ## Keeping the account -/

namespace Account

variable {account : Account}

/-- Hearing adds no message to an account. -/
@[simp] theorem messages_hear (account : Account) (name : String) (octets : Bytes) :
    (account.hear name octets).messages = account.messages := by
  unfold hear
  split <;> rfl

/-- Opening a channel adds no message to an account. -/
@[simp] theorem messages_opening (account : Account) (name : String) :
    (account.opening name).messages = account.messages := by
  unfold opening
  split <;> rfl

/-- Hearing nothing leaves an account as it is. -/
theorem hear_nil (account : Account) (name : String) : account.hear name [] = account := by
  unfold hear
  split <;> simp

/-- What is idle leaves an account as it is. -/
theorem enter_of_idle {action : Action} {outcome : Outcome} (h : Session.Idle account outcome)
    (hgrants : outcome.reply.grants = false)
    (hmessage : ∀ name bytes, action = .send name bytes → outcome.reply.isSent = true →
      ¬ account.isFirst name) :
    account.enter (action, outcome) = account := by
  have hstrayed : { account with strayed := account.strayed ++ outcome.reply.octets } = account := by
    rw [h.octets_eq, List.append_nil]
  cases action with
  | connect | password | askMethods | wait | disconnect | drop => exact hstrayed
  | openChannel name request =>
    simp only [enter, hgrants]
    exact hstrayed
  | send name bytes =>
    simp only [enter, h.octets_eq, hear_nil]
    split
    · rename_i hsent
      exact if_neg (hmessage name bytes rfl hsent)
    · rfl
  | sendExtended | endInput | closeChannel =>
    simp only [enter, h.octets_eq, hear_nil]

/-- An account that an action has led to: it is that of the session, it comes out, and the chunks
that were reported are the pieces of the new messages. -/
structure Kept (account : Account) (lines : List Event) (kept : Account) (session : Session) :
    Prop where
  serves : Session.Serves kept session
  balanced : kept.Balanced
  lines_eq : ∃ messages, kept.messages = account.messages ++ messages ∧
    chunkLines lines = (messages.flatMap pieces).map received

variable {session next : Session} {action : Action}

/-- What was heard is nothing that a session is held to. -/
theorem serves_hear (h : Session.Serves account session) (name : String) (octets : Bytes) :
    Session.Serves (account.hear name octets) session := by
  -- Neither the channels nor the stage of an account depend on what was heard.
  unfold hear
  split
  · exact ⟨⟨h.ids, h.names, h.handover, h.isOpen⟩, h.unheard, h.stage, h.farewell⟩
  · exact ⟨⟨h.ids, h.names, h.handover, h.isOpen⟩, h.unheard, h.stage, h.farewell⟩

/-- An action by which nothing is heard leads to an account that comes out, unless it grants a
channel or sends on the first one. -/
theorem kept_of_idle (hidle : Session.Idle account (session.act action))
    (hbalanced : account.Balanced) (hgrants : (session.act action).reply.grants = false)
    (hmessage : ∀ name bytes, action = .send name bytes →
      (session.act action).reply.isSent = true → ¬ account.isFirst name)
    (hnext : (session.act action).session = some next) :
    Kept account (session.act action).events (account.enter (action, session.act action)) next := by
  rw [enter_of_idle hidle hgrants hmessage]
  exact ⟨hidle.serves next hnext, hbalanced, [], by simp, hidle.lines_eq⟩

/-- Only a question for a channel may be granted. -/
theorem grants_eq_false (h : ∀ name request, action ≠ .openChannel name request) :
    (session.act action).reply.grants = false := by
  cases hgrants : (session.act action).reply.grants with
  | false => rfl
  | true =>
    obtain ⟨-, -, -, name, haction⟩ := Session.act_of_grants hgrants
    exact absurd haction (h name _)

/-- A channel that is opened is entered. -/
theorem balanced_opening (h : account.Balanced) (name : String) :
    ((account.opening name).hear name
      (if account.first = none then banner.greeting else [])).Balanced := by
  cases hfirst : account.first with
  | none =>
    obtain ⟨hothers, hmessages⟩ := h.begins hfirst
    have hopened : account.opening name = { account with first := some name } := by
      simp only [opening, hfirst]
    have hname : isFirst { account with first := some name } name := by
      refine ⟨rfl, ?_⟩
      simp [hothers]
    have hheard : account.heard = [] := by
      rw [h.heard_eq, hfirst]
    rw [hopened, hear, if_pos hname, if_pos rfl]
    refine ⟨?_, h.strayed_eq, by simp⟩
    simp [hheard, hmessages, owed, Exchange.Banner.upTo]
  | some first =>
    have hopened : account.opening name = { account with others := name :: account.others } := by
      simp only [opening, hfirst]
    rw [if_neg (by simp), hear_nil, hopened]
    refine ⟨?_, h.strayed_eq, by simp [hfirst]⟩
    simpa [hfirst] using h.heard_eq

/-- A message that is answered is entered. -/
theorem balanced_noting (h : account.Balanced) {name : String} (hname : account.isFirst name)
    (bytes : Bytes) :
    ((account.noting name bytes).hear name
      (List.replicate (pieceCount bytes.length) banner.reply).flatten).Balanced := by
  have hnoted : account.noting name bytes =
      { account with messages := account.messages ++ [bytes] } := if_pos hname
  have hstill : isFirst { account with messages := account.messages ++ [bytes] } name := hname
  have hheard : account.heard = banner.upTo (owed account.messages) := by
    rw [h.heard_eq, hname.1]
  rw [hnoted, hear, if_pos hstill]
  refine ⟨?_, h.strayed_eq, ?_⟩
  · simp only [hname.1, hheard, Exchange.owed_append, Exchange.Banner.upTo_add]
  · intro hnone
    rw [hname.1] at hnone
    cases hnone

/-- Asking for a channel leads to an account that comes out. -/
theorem kept_openChannel (h : Session.Serves account session) (hbalanced : account.Balanced)
    {name : String} {request : OpenRequest}
    (hnext : (session.act (.openChannel name request)).session = some next) :
    Kept account (session.act (.openChannel name request)).events
      (account.enter (.openChannel name request, session.act (.openChannel name request))) next := by
  cases hgrants : (session.act (.openChannel name request)).reply.grants with
  | false =>
    refine kept_of_idle (h.refused hgrants) hbalanced hgrants ?_ hnext
    intro other bytes hother
    cases hother
  | true =>
    rcases session.openChannel_cases name request with hact | hact | ⟨events, -, hact⟩ |
      ⟨hup, hauth, rfl, hact⟩
    · simp [Session.act, hact, Reply.grants] at hgrants
    · simp [Session.act, hact, Reply.grants] at hgrants
    · simp [Session.act, hact, Reply.grants] at hgrants
    · obtain ⟨hearing, events, after, hgranted, hheard, hlines, hserves, -⟩ :=
        h.heard.granted hbalanced hup name
      have hdone : session.act (.openChannel name (.decided .session)) =
          ⟨.opened .granted (some hearing), events, 0, some after⟩ := hact.trans hgranted
      rw [hdone] at hnext ⊢
      obtain rfl := Option.some.inj hnext
      have hentered : account.enter (.openChannel name (.decided .session),
          ⟨.opened .granted (some hearing), events, 0, some after⟩) =
            (account.opening name).hear name hearing.received := rfl
      rw [hentered, hheard]
      refine ⟨serves_hear hserves _ _, balanced_opening hbalanced name, [], ?_, hlines⟩
      rw [messages_hear, messages_opening, List.append_nil]

/-- Sending a message leads to an account that comes out. -/
theorem kept_send (h : Session.Serves account session) (hbalanced : account.Balanced)
    {name : String} {bytes : Bytes} (hnext : (session.act (.send name bytes)).session = some next) :
    Kept account (session.act (.send name bytes)).events
      (account.enter (.send name bytes, session.act (.send name bytes))) next := by
  by_cases hfirst : session.link.isUp = true ∧ account.isFirst name
  · obtain ⟨hup, hname⟩ := hfirst
    obtain ⟨hearing, after, hact, hheard, hserves, -⟩ := h.answered hup hname bytes
    have hdone : session.act (.send name bytes) =
        ⟨.sent true hearing, (pieces bytes).map received, 0, some after⟩ := hact
    rw [hdone] at hnext ⊢
    obtain rfl := Option.some.inj hnext
    have hentered : account.enter (.send name bytes,
        ⟨.sent true hearing, (pieces bytes).map received, 0, some after⟩) =
          (account.noting name bytes).hear name hearing.received := rfl
    rw [hentered, hheard]
    refine ⟨serves_hear hserves _ _, balanced_noting hbalanced hname bytes, [bytes], ?_, ?_⟩
    · rw [messages_hear, noting, if_pos hname]
    · rw [chunkLines_received, List.flatMap_singleton]
  · have helsewhere : session.link.isUp = true → ¬ account.isFirst name :=
      fun hup hname => hfirst ⟨hup, hname⟩
    have hidle := (h.elsewhere hbalanced helsewhere (.inl ⟨bytes, rfl⟩)).1
    refine kept_of_idle hidle hbalanced (grants_eq_false (by simp)) ?_ hnext
    intro other octets hsame hsent
    cases hsame
    exact helsewhere (Session.isUp_of_isSent hsent)

/-- Ending the input of a channel leads to an account that comes out. -/
theorem kept_end (h : Session.Serves account session) (hbalanced : account.Balanced)
    {name : String} (haction : action = .endInput name ∨ action = .closeChannel name)
    (hnext : (session.act action).session = some next) :
    Kept account (session.act action).events (account.enter (action, session.act action)) next := by
  have hopens : ∀ other request, action ≠ .openChannel other request := by
    rcases haction with rfl | rfl <;> simp
  have hsends : ∀ other bytes, action = .send other bytes →
      (session.act action).reply.isSent = true → ¬ account.isFirst other := by
    rcases haction with rfl | rfl <;> simp
  obtain ⟨effect, heffect, hact⟩ := session.act_of_end haction
  refine kept_of_idle ?_ hbalanced (grants_eq_false hopens) hsends hnext
  rw [hact]
  by_cases hfirst : session.link.isUp = true ∧ account.isFirst name
  · obtain ⟨hup, hname⟩ := hfirst
    obtain ⟨hearing, after, hended, hheard, hserves, -⟩ := h.ended hup hname heffect
    rw [hended]
    refine hserves.idle hheard ?_ rfl
    simp [Session.endingLines, chunkLines, Event.opensWith, List.isPrefixOf]
  · exact (h.elsewhere hbalanced (fun hup hname => hfirst ⟨hup, hname⟩) (.inr heffect)).1

/-- Every action keeps the account. -/
theorem kept_act (h : Session.Serves account session) (hbalanced : account.Balanced)
    (hnext : (session.act action).session = some next) :
    Kept account (session.act action).events (account.enter (action, session.act action)) next := by
  have hstill : Session.Idle account (session.act action) →
      (∀ name request, action ≠ .openChannel name request) →
      (∀ name bytes, action ≠ .send name bytes) →
      Kept account (session.act action).events (account.enter (action, session.act action))
        next := by
    intro hidle hopens hsends
    refine kept_of_idle hidle hbalanced (grants_eq_false hopens) ?_ hnext
    intro name bytes hsame
    exact absurd hsame (hsends name bytes)
  cases action with
  | openChannel name request => exact kept_openChannel h hbalanced hnext
  | send name bytes => exact kept_send h hbalanced hnext
  | endInput name => exact kept_end h hbalanced (.inl rfl) hnext
  | closeChannel name => exact kept_end h hbalanced (.inr rfl) hnext
  | connect => exact hstill (h.idle rfl rfl rfl) (by simp) (by simp)
  | password username password =>
    exact hstill (h.tryPassword username password) (by simp) (by simp)
  | askMethods username => exact hstill h.askMethods (by simp) (by simp)
  | sendExtended name bytes => exact hstill (h.extended name).1 (by simp) (by simp)
  | wait ms =>
    have hlines := (silent_elapse session.link ms).lines_eq
    exact hstill ((h.elapse ms).idle rfl hlines rfl) (by simp) (by simp)
  | disconnect =>
    have hlines := (silent_sever session.link (some "early eof")).lines_eq
    exact hstill ((h.sever "early eof").idle rfl hlines rfl) (by simp) (by simp)
  | drop => cases hnext

/-- The account of a client that has done nothing comes out. -/
theorem balanced_blank : blank.Balanced := ⟨rfl, rfl, fun _ => ⟨rfl, rfl⟩⟩

/-- A session begins with the account of a client that has done nothing. -/
theorem serves_begin (credentials : Credentials) (assignment : Assignment) :
    Session.Serves blank (Session.begin credentials assignment) := by
  refine ⟨⟨rfl, rfl, rfl, ?_⟩, ?_, fun _ => rfl, fun _ => rfl⟩
  · intro _ channel hchannel
    cases hchannel
  · intro channel hchannel
    cases hchannel

/-- The account of a life is that of its session. -/
theorem kept_of_life {credentials : Credentials} {assignment : Assignment} {history : History}
    (h : Life credentials assignment history session) :
    Session.Serves (ofHistory history) session ∧ (ofHistory history).Balanced ∧
      chunkLines (history.flatMap fun step => step.2.events) =
        ((ofHistory history).messages.flatMap pieces).map received := by
  induction h with
  | @connected old session hconnected =>
    by_cases hwait : 0 < assignment.wait
    · rw [connect_of_pos hwait] at hconnected
      obtain rfl := Option.some.inj hconnected
      exact ⟨serves_begin credentials assignment, balanced_blank, rfl⟩
    · rw [connect_of_zero (by omega)] at hconnected
      cases hconnected
  | @acted history session next action hlife hnext ih =>
    obtain ⟨hserves, hbalanced, hlines⟩ := ih
    obtain ⟨hkept, hstill, messages, hmessages, hnew⟩ := kept_act hserves hbalanced hnext
    have hhistory : ofHistory (history ++ [(action, session.act action)]) =
        (ofHistory history).enter (action, session.act action) := by
      unfold ofHistory
      rw [List.foldl_append]
      rfl
    rw [hhistory]
    refine ⟨hkept, hstill, ?_⟩
    rw [List.flatMap_append, chunkLines_append, hlines, List.flatMap_singleton, hnew, hmessages,
      List.flatMap_append, List.map_append]

end Account

/-! ## What each action comes to -/

namespace Session

variable {account : Account} {session : Session}

/-- An authenticated client is granted session channels and nothing else, and only the first of
them is greeted. -/
theorem Serves.openChannel (h : Serves account session) (hbalanced : account.Balanced)
    (hup : session.link.isUp = true) (hauth : session.authenticated = true) (name : String)
    (request : OpenRequest) :
    let outcome := session.act (.openChannel name request)
    outcome.reply.grants = decide (request = .decided .session) ∧
      outcome.reply.octets =
        (if request = .decided .session ∧ account.first = none then banner.greeting else []) ∧
      chunkLines outcome.events = [] ∧ outcome.isUp = true := by
  intro outcome
  by_cases hsession : request = .decided .session
  · obtain ⟨hearing, events, next, hgranted, hheard, hlines, -, hnext⟩ :=
      h.heard.granted hbalanced hup name
    have hdone : outcome = ⟨.opened .granted (some hearing), events, 0, some next⟩ := by
      rw [← hgranted]
      simp only [outcome, act, Session.openChannel, hup, hauth, hsession, Bool.not_true,
        Bool.false_eq_true, if_false]
    rw [hdone]
    refine ⟨by simp [hsession, Reply.grants], ?_, hlines, hnext⟩
    simp only [hsession, true_and]
    exact hheard
  · have hdone : ∃ events, outcome =
        ⟨.opened (.failure .administrativelyProhibited) none, events, 0, some session.heard⟩ := by
      cases request with
      | streamlocal =>
        refine ⟨[], ?_⟩
        simp [outcome, act, Session.openChannel, hup, hauth]
      | decided kind =>
        have hpolicy : outcome = session.heard.request name kind := by
          simp [outcome, act, Session.openChannel, hup, hauth]
        rw [hpolicy]
        cases kind with
        | session => exact absurd rfl hsession
        | x11 => exact ⟨_, rfl⟩
        | directTcpip => exact ⟨_, rfl⟩
    obtain ⟨events, hrefused⟩ := hdone
    have hgrants : outcome.reply.grants = false := by
      rw [hrefused]
      rfl
    have hlines := (h.refused hgrants).lines_eq
    refine ⟨by simp [hgrants, hsession], ?_, hlines, ?_⟩
    · rw [hrefused]
      simp [hsession, Reply.octets]
    · rw [hrefused]
      exact hup

/-- Whatever a client does on a transport that is not up comes to nothing. -/
theorem Serves.nothing (h : Serves account session) (hbalanced : account.Balanced)
    (hdown : session.link.isUp = false) (action : Action) :
    let outcome := session.act action
    outcome.reply.octets = [] ∧ outcome.reply.grants = false ∧ outcome.events = [] ∧
      outcome.isUp = false := by
  intro outcome
  have hleft : session.link.stage = .left := by
    by_contra hstage
    rw [Link.isUp_iff.mpr hstage] at hdown
    cases hdown
  have hnowhere : ∀ name, session.link.isUp = true → ¬ account.isFirst name := by
    intro name hup
    rw [hdown] at hup
    cases hup
  refine ⟨?_, ?_, events_of_left hleft action, ?_⟩
  · cases action with
    | connect | wait | disconnect | drop => rfl
    | password | askMethods | openChannel =>
      simp [outcome, act, Session.tryPassword, Session.askMethods, Session.openChannel, hdown,
        Reply.octets]
    | send name bytes =>
      exact (h.elsewhere hbalanced (hnowhere name) (.inl ⟨bytes, rfl⟩)).1.octets_eq
    | sendExtended name bytes => exact (h.extended name).1.octets_eq
    | endInput name =>
      exact (h.elsewhere hbalanced (hnowhere name) (.inr (.inl rfl))).1.octets_eq
    | closeChannel name =>
      exact (h.elsewhere hbalanced (hnowhere name) (.inr (.inr rfl))).1.octets_eq
  · by_contra hgrants
    rw [(act_of_grants (by simpa [outcome] using hgrants)).1] at hdown
    cases hdown
  · unfold Outcome.isUp
    cases hnext : outcome.session with
    | none => rfl
    | some next =>
      obtain ⟨⟨deeds, passes, hmoves, -⟩, -⟩ := effect_act hnext
      simp [Link.isUp, hmoves.left_of hleft]

/-- A message is answered if it stands on the first channel. -/
theorem Serves.send (h : Serves account session) (hbalanced : account.Balanced)
    (hup : session.link.isUp = true) (name : String) (bytes : Bytes) :
    let outcome := session.act (.send name bytes)
    let count := if account.isFirst name then (bytes.length + 1023) / 1024 else 0
    outcome.reply.octets = (List.replicate count banner.reply).flatten ∧
      (chunkLines outcome.events).length = count ∧ outcome.isUp = true ∧
      (account.isFirst name → outcome.reply.isSent = true) := by
  intro outcome count
  by_cases hname : account.isFirst name
  · obtain ⟨hearing, next, hact, hheard, -, hnext⟩ := h.answered hup hname bytes
    have hdone : outcome = ⟨.sent true hearing, (pieces bytes).map received, 0, some next⟩ := hact
    have hcount : count = pieceCount bytes.length := if_pos hname
    rw [hdone, hcount]
    refine ⟨hheard, ?_, hnext, fun _ => rfl⟩
    rw [chunkLines_received, List.length_map, Exchange.length_pieces]
  · obtain ⟨hidle, hnone, hkept⟩ :=
      h.elsewhere hbalanced (fun _ => hname) (.inl ⟨bytes, rfl⟩)
    have hcount : count = 0 := if_neg hname
    rw [hcount]
    refine ⟨hidle.octets_eq, ?_, hkept.trans hup, fun hfirst => absurd hfirst hname⟩
    have hevents : outcome.events = [] := hnone
    rw [hevents]
    rfl

/-- The end of the input of the first channel ends the transport, that of another does not. -/
theorem Serves.close (h : Serves account session) (hbalanced : account.Balanced)
    (hup : session.link.isUp = true) (name : String) {action : Action}
    (haction : action = .endInput name ∨ action = .closeChannel name) :
    let outcome := session.act action
    outcome.reply.octets = [] ∧
      if account.isFirst name then
        outcome.events = endingLines session.link.assignment.peer (owed account.messages) ∧
          outcome.session.map Session.transport = some ⟨true, some ⟨"ByApplication", ""⟩⟩
      else outcome.events = [] ∧ outcome.isUp = true := by
  intro outcome
  obtain ⟨effect, heffect, hact⟩ := session.act_of_end haction
  by_cases hname : account.isFirst name
  · obtain ⟨hearing, next, hended, hheard, -, hleft, hfarewell⟩ :=
      h.ended hup hname heffect
    have hdone : outcome = _ := hact.trans hended
    rw [if_pos hname, hdone]
    refine ⟨hheard, rfl, ?_⟩
    simp [Session.transport, Link.isUp, hleft, hfarewell, Ssh.farewell]
  · obtain ⟨hidle, hnone, hkept⟩ := h.elsewhere hbalanced (fun _ => hname) (.inr heffect)
    have hdone : outcome = session.onChannel name effect := hact
    rw [if_neg hname, hdone]
    exact ⟨hidle.octets_eq, hnone, hkept.trans hup⟩

end Session

/-- On every connection the greeting is sent once, on the first session channel, and every message
on that channel is answered there by a reply for every piece it is read in, with a line in the log
for every piece. Nothing is ever heard on any other channel. What the client does elsewhere, refused
requests and extended data included, leaves that as it is, and leaves the transport up. When the
input of the first channel ends, the server ends the transport, whatever other channels there are,
and after that nothing is answered any more. -/
theorem only_first_channel_is_served {credentials : Credentials} {assignment : Assignment}
    {history : History} {session : Session} (h : Life credentials assignment history session) :
    let account := Account.ofHistory history
    account.Balanced ∧
    chunkLines (history.flatMap fun step => step.2.events) =
      (account.messages.flatMap pieces).map received ∧
    (session.link.isUp = true →
      (session.authenticated = true → ∀ name request,
        let outcome := session.act (.openChannel name request)
        outcome.reply.grants = decide (request = .decided .session) ∧
          outcome.reply.octets =
            (if request = .decided .session ∧ account.first = none then banner.greeting else []) ∧
          chunkLines outcome.events = [] ∧ outcome.isUp = true) ∧
      (∀ name bytes,
        let outcome := session.act (.send name bytes)
        let count := if account.isFirst name then (bytes.length + 1023) / 1024 else 0
        outcome.reply.octets = (List.replicate count banner.reply).flatten ∧
          (chunkLines outcome.events).length = count ∧ outcome.isUp = true ∧
          (account.isFirst name → outcome.reply.isSent = true)) ∧
      (∀ name bytes,
        let outcome := session.act (.sendExtended name bytes)
        outcome.reply.octets = [] ∧ outcome.events = [] ∧ outcome.isUp = true) ∧
      ∀ name action, action = .endInput name ∨ action = .closeChannel name →
        let outcome := session.act action
        outcome.reply.octets = [] ∧
          if account.isFirst name then
            outcome.events = Session.endingLines assignment.peer (owed account.messages) ∧
              outcome.session.map Session.transport = some ⟨true, some ⟨"ByApplication", ""⟩⟩
          else outcome.events = [] ∧ outcome.isUp = true) ∧
    (session.link.isUp = false → ∀ action,
      let outcome := session.act action
      outcome.reply.octets = [] ∧ outcome.reply.grants = false ∧ outcome.events = [] ∧
        outcome.isUp = false) := by
  intro account
  obtain ⟨hserves, hbalanced, hlines⟩ := Account.kept_of_life h
  have hpeer : session.link.assignment.peer = assignment.peer :=
    congrArg Assignment.peer (timed_of_life h).assigned
  refine ⟨hbalanced, hlines, ?_, ?_⟩
  · intro hup
    refine ⟨?_, ?_, ?_, ?_⟩
    · intro hauth name request
      exact hserves.openChannel hbalanced hup hauth name request
    · intro name bytes
      exact hserves.send hbalanced hup name bytes
    · intro name bytes
      obtain ⟨hidle, hnone, hkept⟩ := hserves.extended name
      exact ⟨hidle.octets_eq, hnone, hkept.trans hup⟩
    · intro name action haction
      rw [← hpeer]
      exact hserves.close hbalanced hup name haction
  · intro hdown action
    exact hserves.nothing hbalanced hdown action

/-- A client with two session channels is answered twice for 1500 octets on the first, and not at all
for a message on the second. -/
theorem second_channel_is_not_served :
    ∃ history session, Life ⟨"user", "secret"⟩ ⟨"127.0.0.1:4022", 20⟩ history session ∧
      session.link.isUp = true ∧ (Account.ofHistory history).names = ["second", "first"] ∧
      (session.act (.send "first" (List.replicate 1500 65))).reply.octets =
        banner.reply ++ banner.reply ∧
      (session.act (.send "second" [104, 105])).reply.octets = [] := by
  have hlife : Life ⟨"user", "secret"⟩ ⟨"127.0.0.1:4022", 20⟩ _ _ :=
    .acted (.openChannel "second" (.decided .session))
      (.acted (.openChannel "first" (.decided .session))
        (.acted (.password "user" "secret") (.connected (connect_of_pos (by decide) _ none)) rfl)
        rfl) rfl
  obtain ⟨-, -, hserved, -⟩ := only_first_channel_is_served hlife
  obtain ⟨-, hsend, -⟩ := hserved (by decide +kernel)
  refine ⟨_, _, hlife, by decide +kernel, by decide +kernel, ?_, ?_⟩
  · have hfirst := (hsend "first" (List.replicate 1500 65)).1
    exact hfirst.trans (by decide +kernel)
  · have hsecond := (hsend "second" [104, 105]).1
    exact hsecond.trans (by decide +kernel)

end PongFixture.Ssh
