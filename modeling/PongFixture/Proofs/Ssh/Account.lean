import Mathlib.Data.List.Nodup
import PongFixture.Proofs.Ssh.Silence

/-!
# What a client did with its channels and heard on them

An account of a history is kept from the actions and their outcomes alone. It holds what the client
sent on its first session channel and heard on it, and what it heard anywhere else. A session goes
with an account if its channels are those of the account (`Matches`), nothing is left to be heard,
and the worker waits after as many replies as the account owes (`Serves`). What says nothing on the
channel leaves that as it is.
-/

set_option autoImplicit false

namespace PongFixture.Ssh

open Exchange (owed)

/-! ## Accounts -/

/-- The octets that a client hears by a reply. -/
def Reply.octets : Reply → Bytes
  | .opened _ (some hearing) => hearing.received
  | .sent _ hearing => hearing.received
  | _ => []

/-- Whether a message went out on a transport that is up. -/
def Reply.isSent : Reply → Bool
  | .sent accepted _ => accepted
  | _ => false

/-- Whether an outcome leaves a transport that is up. -/
def Outcome.isUp (outcome : Outcome) : Bool :=
  outcome.session.any fun session => session.link.isUp

/-- What a client did with its channels, and what it heard on them: the name of the first session
channel and the names of the others, the messages on the first, what was heard on it, and what was
heard anywhere else. -/
structure Account where
  first : Option String
  others : List String
  messages : List Bytes
  heard : Bytes
  strayed : Bytes

namespace Account

/-- The account of a client that has not done anything yet. -/
def blank : Account := ⟨none, [], [], [], []⟩

/-- Whether a name stands for the first session channel. A name that is used again stands for the
channel that was opened last. -/
def isFirst (account : Account) (name : String) : Prop :=
  account.first = some name ∧ name ∉ account.others

/-- Whether a name stands for the first session channel can be read off the account. -/
instance (account : Account) (name : String) : Decidable (account.isFirst name) :=
  inferInstanceAs (Decidable (_ ∧ _))

/-- Enters what was heard on the channel of a name. -/
def hear (account : Account) (name : String) (octets : Bytes) : Account :=
  if account.isFirst name then { account with heard := account.heard ++ octets }
  else { account with strayed := account.strayed ++ octets }

/-- An account with one more channel. -/
def opening (account : Account) (name : String) : Account :=
  match account.first with
  | none => { account with first := some name }
  | some _ => { account with others := name :: account.others }

/-- An account with one more message. -/
def noting (account : Account) (name : String) (bytes : Bytes) : Account :=
  if account.isFirst name then { account with messages := account.messages ++ [bytes] }
  else account

/-- An account with one more action of the client. -/
def enter (account : Account) (step : Action × Outcome) : Account :=
  let octets := step.2.reply.octets
  match step.1 with
  | .openChannel name _ =>
    if step.2.reply.grants then (account.opening name).hear name octets
    else { account with strayed := account.strayed ++ octets }
  | .send name bytes =>
    if step.2.reply.isSent then (account.noting name bytes).hear name octets
    else account.hear name octets
  | .sendExtended name _ | .endInput name | .closeChannel name => account.hear name octets
  | _ => { account with strayed := account.strayed ++ octets }

/-- The account of a history. -/
def ofHistory (history : History) : Account := history.foldl enter blank

/-- The names of all channels, the last one opened first. -/
def names (account : Account) : List String := account.others ++ account.first.toList

/-- An account that comes out: on the first channel, if there is one, the greeting and the replies
that its messages call for, and elsewhere nothing. -/
structure Balanced (account : Account) : Prop where
  heard_eq : account.heard =
    match account.first with
    | none => []
    | some _ => banner.upTo (owed account.messages)
  strayed_eq : account.strayed = []
  begins : account.first = none → account.others = [] ∧ account.messages = []

end Account

/-! ## Channels of a session -/

/-- A channel that vanishes keeps its id. -/
@[simp] theorem Channel.id_vanish (channel : Channel) : channel.vanish.id = channel.id := by
  unfold vanish
  split <;> rfl

/-- A channel that vanishes keeps its name. -/
@[simp] theorem Channel.name_vanish (channel : Channel) : channel.vanish.name = channel.name := by
  unfold vanish
  split <;> rfl

/-- What has come in on a channel can be heard after it has vanished. -/
@[simp] theorem Channel.unheard_vanish (channel : Channel) :
    channel.vanish.unheard = channel.unheard := by
  unfold vanish
  split <;> rfl

namespace Session

variable {session : Session} {name : String} {channel : Channel}

/-- What deeds of the worker make of a channel. -/
def reached (session : Session) (done : List Deed × Link) (channel : Channel) : Channel :=
  let delivered :=
    if session.handler.handover.delivered = some channel.id then channel.receive (sentBy done.1)
    else channel
  if done.2.isUp then delivered else delivered.vanish

section Reached

variable (session : Session) (done : List Deed × Link) (channel : Channel)

/-- What deeds make of the channels they make of each of them. -/
theorem channels_absorb_eq :
    (session.absorb done).2.channels = session.channels.map (session.reached done) := by
  unfold absorb reached
  cases done.2.isUp with
  | true => simp
  | false => simp [Function.comp_def]

/-- The deeds of the worker leave a channel its id. -/
@[simp] theorem id_reached : (session.reached done channel).id = channel.id := by
  unfold reached
  split <;> split <;> simp [Channel.receive]

/-- The deeds of the worker leave a channel its name. -/
@[simp] theorem name_reached : (session.reached done channel).name = channel.name := by
  unfold reached
  split <;> split <;> simp [Channel.receive]

/-- What the worker sends can be heard on the channel that has been delivered, and on no other. -/
theorem unheard_reached :
    (session.reached done channel).unheard = channel.unheard ++
      if session.handler.handover.delivered = some channel.id then sentBy done.1 else [] := by
  unfold reached
  split <;> split <;> simp [Channel.receive]

/-- As long as the transport is up the deeds of the worker close no channel. -/
theorem isOpen_reached (hup : done.2.isUp = true) :
    (session.reached done channel).isOpen = channel.isOpen := by
  unfold reached
  rw [if_pos hup]
  split <;> rfl

/-- A name finds the channel that it found before, as the deeds have made it. -/
theorem channel?_absorb (name : String) :
    (session.absorb done).2.channel? name = (session.channel? name).map (session.reached done) := by
  unfold channel?
  have hsame : (fun other : Channel => other.name == name) ∘ session.reached done =
      fun other => other.name == name := by
    funext other
    rw [Function.comp_apply, name_reached]
  rw [channels_absorb_eq, List.find?_map, hsame]

end Reached

/-- What a name finds is a channel of the session, and has that name. -/
theorem mem_of_channel? (h : session.channel? name = some channel) :
    channel ∈ session.channels ∧ channel.name = name := by
  have hname := List.find?_some h
  exact ⟨List.mem_of_find?_eq_some h, by simpa using hname⟩

/-- Listening gives what there is to hear and see on the channel of a name, and takes it away. -/
theorem listen_eq (h : session.channel? name = some channel) :
    session.listen name =
      (⟨channel.unheard, channel.unseen⟩, session.withChannel channel.listened) := by
  simp only [listen, h]

/-- A session whose channels are those of an account, the first of them handed over. As long as the
transport is up the first channel is open. -/
structure Matches (account : Account) (session : Session) : Prop where
  ids : session.channels.map Channel.id = (List.range session.opened).reverse
  names : session.channels.map Channel.name = account.names
  handover : session.handler.handover =
    match account.first with
    | none => .new
    | some _ => ⟨false, true, some 0⟩
  isOpen : session.link.isUp = true → ∀ channel ∈ session.channels, channel.id = 0 →
    channel.isOpen = true

section Matches

variable {account : Account}

/-- No two channels of a session have one id. -/
theorem Matches.eq_of_id (h : Matches account session) {other : Channel}
    (hchannel : channel ∈ session.channels) (hother : other ∈ session.channels)
    (hid : other.id = channel.id) : other = channel := by
  have hdistinct : (session.channels.map Channel.id).Nodup := by
    rw [h.ids]
    exact List.nodup_reverse.mpr List.nodup_range
  exact List.inj_on_of_nodup_map hdistinct hother hchannel hid

/-- What leaves the ids and the names of all channels alone leaves the channels those of the
account. -/
theorem Matches.of_map (h : Matches account session) {next : Session} (f : Channel → Channel)
    (hchannels : next.channels = session.channels.map f)
    (hopened : next.opened = session.opened)
    (hhandler : next.handler.handover = session.handler.handover)
    (hsame : ∀ channel ∈ session.channels, (f channel).id = channel.id ∧
      (f channel).name = channel.name)
    (hopen : next.link.isUp = true → session.link.isUp = true ∧
      ∀ channel ∈ session.channels, channel.id = 0 → (f channel).isOpen = channel.isOpen) :
    Matches account next where
  ids := by
    rw [hchannels, hopened, ← h.ids, List.map_map]
    exact List.map_congr_left fun channel hchannel => (hsame channel hchannel).1
  names := by
    rw [hchannels, ← h.names, List.map_map]
    exact List.map_congr_left fun channel hchannel => (hsame channel hchannel).2
  handover := hhandler.trans h.handover
  isOpen := by
    intro hup changed hchanged hid
    rw [hchannels] at hchanged
    obtain ⟨channel, hchannel, rfl⟩ := List.mem_map.mp hchanged
    rw [(hsame channel hchannel).1] at hid
    rw [(hopen hup).2 channel hchannel hid]
    exact h.isOpen (hopen hup).1 channel hchannel hid

/-- The deeds of the worker leave the channels those of the account. -/
theorem Matches.absorb (h : Matches account session) (done : List Deed × Link)
    (hup : done.2.isUp = true → session.link.isUp = true) :
    Matches account (session.absorb done).2 := by
  have hchannels := channels_absorb_eq session done
  refine h.of_map _ hchannels rfl rfl ?_ ?_
  · intro channel _
    exact ⟨id_reached session done channel, name_reached session done channel⟩
  · intro hdone
    refine ⟨hup hdone, ?_⟩
    intro channel _ _
    exact isOpen_reached session done channel hdone

/-- Listening leaves the channels those of the account. -/
theorem Matches.listen (h : Matches account session) (name : String) :
    Matches account (session.listen name).2 := by
  cases hchannel : session.channel? name with
  | none => simpa only [Session.listen, hchannel] using h
  | some channel =>
    have hmem := (mem_of_channel? hchannel).1
    rw [listen_eq hchannel]
    -- Listening changes only what there is to be heard and seen.
    have hkept : ∀ other ∈ session.channels,
        let changed := if other.id = channel.listened.id then channel.listened else other
        changed.id = other.id ∧ changed.name = other.name ∧ changed.isOpen = other.isOpen := by
      intro other hother
      by_cases hid : other.id = channel.id
      · rw [h.eq_of_id hmem hother hid]
        simp [Channel.listened]
      · simp [Channel.listened, hid]
    refine h.of_map _ rfl rfl rfl ?_ ?_
    · intro other hother
      obtain ⟨hid, hname, -⟩ := hkept other hother
      exact ⟨hid, hname⟩
    · intro hup
      refine ⟨hup, ?_⟩
      intro other hother _
      exact (hkept other hother).2.2

/-- After listening to a channel nothing is left to be heard, if there was nothing elsewhere. -/
theorem unheard_listen (hchannel : session.channel? name = some channel)
    (hunheard : ∀ other ∈ session.channels, other.id ≠ channel.id → other.unheard = []) :
    ∀ other ∈ (session.listen name).2.channels, other.unheard = [] := by
  intro changed hchanged
  rw [listen_eq hchannel] at hchanged
  obtain ⟨other, hother, rfl⟩ := List.mem_map.mp hchanged
  by_cases hid : other.id = channel.id
  · simp [Channel.listened, hid]
  · simpa [Channel.listened, hid] using hunheard other hother hid

/-- Before the first channel there is none. -/
theorem Matches.unopened (h : Matches account session) (hfirst : account.first = none)
    (hothers : account.others = []) : session.channels = [] ∧ session.opened = 0 := by
  have hnames := h.names
  have hids := h.ids
  rw [Account.names, hfirst, hothers] at hnames
  have hnone : session.channels = [] := List.map_eq_nil_iff.mp hnames
  rw [hnone] at hids
  exact ⟨hnone, by simpa using (congrArg List.length hids).symm⟩

/-- The first channel stands last among the channels, and has the first id. -/
theorem Matches.split (h : Matches account session) {first : String}
    (hfirst : account.first = some first) :
    ∃ later last, session.channels = later ++ [last] ∧
      later.map Channel.name = account.others ∧ last.name = first ∧ last.id = 0 ∧
      ∀ channel ∈ later, channel.id ≠ 0 := by
  have hnames : session.channels.map Channel.name = account.others ++ [first] := by
    rw [h.names, Account.names, hfirst]
    rfl
  obtain ⟨later, lasts, hsplit, hlater, hlast⟩ := List.map_eq_append_iff.mp hnames
  obtain ⟨last, rfl, hname⟩ := List.map_eq_singleton_iff.mp hlast
  have hids := h.ids
  cases hopened : session.opened with
  | zero => simp [hopened, hsplit] at hids
  | succ opened =>
    rw [hopened, List.range_succ_eq_map, List.reverse_cons, hsplit, List.map_append,
      List.map_singleton] at hids
    obtain ⟨hlaterIds, hlastId⟩ := List.append_inj' hids rfl
    refine ⟨later, last, hsplit, hlater, hname, List.singleton_inj.mp hlastId, ?_⟩
    intro channel hchannel hzero
    have hmem : channel.id ∈ ((List.range opened).map Nat.succ).reverse := by
      rw [← hlaterIds]
      exact List.mem_map_of_mem hchannel
    simp [hzero] at hmem

/-- A name stands for the first channel exactly if what it finds has the first id. -/
theorem Matches.isFirst_iff (h : Matches account session)
    (hbegins : account.first = none → account.others = [])
    (hchannel : session.channel? name = some channel) :
    account.isFirst name ↔ channel.id = 0 := by
  obtain ⟨hmem, hname⟩ := mem_of_channel? hchannel
  cases hfirst : account.first with
  | none =>
    rw [(h.unopened hfirst (hbegins hfirst)).1] at hmem
    cases hmem
  | some first =>
    obtain ⟨later, last, hsplit, hothers, hlastName, hlastId, hlaterIds⟩ := h.split hfirst
    unfold Account.isFirst
    rw [hfirst, ← hothers]
    unfold channel? at hchannel
    rw [hsplit, List.find?_append] at hchannel
    cases hfind : later.find? fun channel => channel.name == name with
    | some other =>
      rw [hfind] at hchannel
      obtain rfl := Option.some.inj hchannel
      have hother := List.mem_of_find?_eq_some hfind
      have hlisted : name ∈ later.map Channel.name := hname ▸ List.mem_map_of_mem hother
      simp [hlaterIds _ hother, hlisted]
    | none =>
      rw [hfind, Option.none_or, List.find?_singleton] at hchannel
      split at hchannel
      · obtain rfl := Option.some.inj hchannel
        have hunlisted : name ∉ later.map Channel.name := by
          intro hlisted
          obtain ⟨other, hother, hotherName⟩ := List.mem_map.mp hlisted
          have hdiffers := List.find?_eq_none.mp hfind other hother
          simp [hotherName] at hdiffers
        rw [hlastId, ← hlastName, hname]
        simp [hunlisted]
      · cases hchannel

/-- A name that stands for the first channel finds it. -/
theorem Matches.channel?_of_isFirst (h : Matches account session) (hname : account.isFirst name) :
    ∃ channel, session.channel? name = some channel ∧ channel ∈ session.channels ∧
      channel.id = 0 := by
  have hfound : (session.channel? name).isSome = true := by
    obtain ⟨later, last, hsplit, -, hlastName, -⟩ := h.split hname.1
    unfold channel?
    rw [List.find?_isSome]
    exact ⟨last, by simp [hsplit], by simp [hlastName]⟩
  obtain ⟨channel, hchannel⟩ := Option.isSome_iff_exists.mp hfound
  have hbegins : account.first = none → account.others = [] := by simp [hname.1]
  exact ⟨channel, hchannel, (mem_of_channel? hchannel).1,
    (h.isFirst_iff hbegins hchannel).mp hname⟩

end Matches

end Session

/-! ## The worker of an account -/

/-- Where the worker of an account stands as long as the transport is up. -/
def Account.stage (account : Account) : Stage :=
  match account.first with
  | none => .awaitingChannel
  | some _ => .serving (.waiting .new .willing (owed account.messages))

namespace Session

/-- A session that is as its account has it: nothing is left to be heard, and the worker waits after
as many replies as are owed. -/
structure Serves (account : Account) (session : Session) : Prop extends
    Matches account session where
  unheard : ∀ channel ∈ session.channels, channel.unheard = []
  stage : session.link.isUp = true → session.link.stage = account.stage
  farewell : session.link.isUp = true → session.link.farewell = none

/-- An outcome by which nothing is heard, no chunk is reported, and the account stays as it is. -/
structure Idle (account : Account) (outcome : Outcome) : Prop where
  octets_eq : outcome.reply.octets = []
  lines_eq : chunkLines outcome.events = []
  serves : ∀ next, outcome.session = some next → Serves account next

variable {account : Account} {session : Session} {name : String} {channel : Channel}

/-- Clocks, counts and the rest of what a session has make no difference. -/
theorem Serves.of_same (h : Serves account session) {next : Session}
    (hchannels : next.channels = session.channels) (hopened : next.opened = session.opened)
    (hhandover : next.handler.handover = session.handler.handover)
    (hstage : next.link.stage = session.link.stage)
    (hfarewell : next.link.farewell = session.link.farewell) : Serves account next := by
  have hup : next.link.isUp = session.link.isUp := by
    unfold Link.isUp
    rw [hstage]
  refine ⟨⟨?_, ?_, hhandover.trans h.handover, ?_⟩, ?_, ?_, ?_⟩
  · rw [hchannels, hopened]
    exact h.ids
  · rw [hchannels]
    exact h.names
  · rw [hchannels, hup]
    exact h.isOpen
  · rw [hchannels]
    exact h.unheard
  · rw [hstage, hup]
    exact h.stage
  · rw [hfarewell, hup]
    exact h.farewell

/-- A message of the client leaves the session as its account has it. -/
theorem Serves.heard (h : Serves account session) : Serves account session.heard :=
  h.of_same rfl rfl rfl rfl rfl

/-- An attempt of the client leaves the session as its account has it. -/
theorem Serves.attempting (h : Serves account session) : Serves account session.attempting :=
  h.of_same rfl rfl rfl rfl rfl

/-- Deeds that say nothing on the channel leave the account, if the worker stays where it is or
leaves. -/
theorem Serves.absorb (h : Serves account session) {done : List Deed × Link}
    (hsilent : Silent done.1)
    (hlink : done.2.isUp = true → done.2.stage = session.link.stage ∧
      done.2.farewell = session.link.farewell) :
    Serves account (session.absorb done).2 := by
  have hup : done.2.isUp = true → session.link.isUp = true := by
    intro hdone
    rw [Link.isUp_iff, ← (hlink hdone).1]
    exact Link.isUp_iff.mp hdone
  refine ⟨h.toMatches.absorb done hup, ?_, ?_, ?_⟩
  · intro changed hchanged
    rw [channels_absorb_eq] at hchanged
    obtain ⟨channel, hchannel, rfl⟩ := List.mem_map.mp hchanged
    rw [unheard_reached, hsilent.sent_eq, h.unheard channel hchannel, ite_self, List.append_nil]
  · intro hdone
    exact (hlink hdone).1.trans (h.stage (hup hdone))
  · intro hdone
    exact (hlink hdone).2.trans (h.farewell (hup hdone))

/-- Time leaves the session as its account has it. -/
theorem Serves.elapse (h : Serves account session) (ms : Nat) :
    Serves account (session.elapse ms).2 := by
  apply h.absorb (silent_elapse session.link ms)
  intro hup
  rcases session.link.stage_elapse ms with ⟨hlater, -⟩ | hleft
  · rw [hlater]
    exact ⟨rfl, rfl⟩
  · exact absurd hleft (Link.isUp_iff.mp hup)

/-- The end of the transport leaves the session as its account has it. -/
theorem Serves.sever (h : Serves account session) (error : String) :
    Serves account (session.sever error).2 := by
  apply h.absorb (silent_sever session.link (some error))
  intro hup
  have hstage : session.link.stage ≠ .connecting := by
    intro hconnecting
    have hstage := h.stage (Link.isUp_iff.mpr (by simp [hconnecting]))
    unfold Account.stage at hstage
    rw [hconnecting] at hstage
    split at hstage <;> cases hstage
  rw [Link.sever_eq hstage] at hup
  cases hup

/-- Listening where nothing is left brings nothing. -/
theorem Serves.listen (h : Serves account session) (name : String) :
    (session.listen name).1.received = [] ∧ Serves account (session.listen name).2 := by
  cases hchannel : session.channel? name with
  | none =>
    unfold Session.listen
    rw [hchannel]
    exact ⟨rfl, h⟩
  | some channel =>
    have hmem := (mem_of_channel? hchannel).1
    have hlink := link_listen session name
    refine ⟨?_, h.toMatches.listen name, ?_, ?_, ?_⟩
    · rw [listen_eq hchannel]
      exact h.unheard channel hmem
    · exact unheard_listen hchannel fun other hother _ => h.unheard other hother
    · rw [hlink]
      exact h.stage
    · rw [hlink]
      exact h.farewell

end Session

end PongFixture.Ssh
