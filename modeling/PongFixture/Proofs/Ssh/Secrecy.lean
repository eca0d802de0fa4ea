import Mathlib.Data.List.Forall2
import PongFixture.Proofs.Ssh.Life

/-!
# Passwords do not show

Two servers that accept the same user name with different passwords, and clients that do the same
but for the texts of the passwords they try, right on both servers or wrong on both, cannot be told
apart: every answer and every event is the same (`passwords_do_not_show`).

The only place where a session keeps a secret is the pair that its handler accepts. Put another pair
there, and the session does the same with everything but attempts
(`Session.perform_withCredentials`), and with attempts that the two pairs judge alike. A server does
too (`Server.step_withCredentials`), since its own pair is only passed on to new sessions, and so
does a run.
-/

set_option autoImplicit false

namespace PongFixture.Ssh

/-! ## Alike but for passwords -/

/-- An action without the text of a password in it. -/
def Action.redacted : Action → Action
  | .password username _ => .password username ""
  | action => action

/-- Whether an action tries an accepted pair. -/
def Action.fits (credentials : Credentials) : Action → Bool
  | .password username text =>
    decide (username = credentials.username ∧ text = credentials.password)
  | _ => false

/-- Actions on two servers that are the same but for the text of a password, which is right on both
servers or wrong on both. -/
structure Action.Alike (here there : Credentials) (first second : Action) : Prop where
  redacted_eq : first.redacted = second.redacted
  fits_eq : first.fits here = second.fits there

/-- Steps of the same client whose actions are alike. -/
structure Step.Alike (here there : Credentials) (first second : Step) : Prop where
  client_eq : first.client = second.client
  action : first.action.Alike here there second.action

/-- A pair with another password. -/
def Credentials.withPassword (credentials : Credentials) (password : String) : Credentials :=
  { credentials with password }

/-- What all connections share, with another password to accept. -/
def Context.withPassword (context : Context) (password : String) : Context :=
  { context with credentials := context.credentials.withPassword password }

section Alike

variable {here there : Credentials} {first second : Action}

/-- A step is alike to itself on one server. -/
theorem Step.alike_refl (credentials : Credentials) (step : Step) :
    step.Alike credentials credentials step := ⟨rfl, rfl, rfl⟩

/-- Actions that are alike are the same, or attempts with the same user name. -/
theorem Action.Alike.cases (h : first.Alike here there second) :
    (second = first ∧ ∀ username password, first ≠ .password username password) ∨
      ∃ username password guess, first = .password username password ∧
        second = .password username guess ∧
        here.judge username password = there.judge username guess := by
  have hredacted := h.redacted_eq
  have hfits := h.fits_eq
  cases first with
  | password username text =>
    cases second with
    | password other guess =>
      obtain rfl : username = other := by simpa [redacted] using hredacted
      have hiff := decide_eq_decide.mp hfits
      refine .inr ⟨username, text, guess, rfl, rfl, ?_⟩
      unfold Credentials.judge
      simp only [hiff]
    | _ => cases hredacted
  | _ =>
    cases second with
    | password other guess => cases hredacted
    | _ =>
      exact .inl ⟨hredacted.symm, by simp⟩

end Alike

/-! ## Another accepted pair -/

/-- A session whose handler accepts another pair. -/
def Session.withCredentials (session : Session) (credentials : Credentials) : Session :=
  { session with handler := { session.handler with credentials } }

/-- An outcome whose session goes on with another pair. -/
def Outcome.withCredentials (outcome : Outcome) (credentials : Credentials) : Outcome :=
  { outcome with session := outcome.session.map fun session => session.withCredentials credentials }

namespace Session

section Parts

variable (session : Session) (credentials : Credentials)

/-- A transport ends in the same way whatever pair is accepted. -/
theorem sever_withCredentials (error : String) :
    (session.withCredentials credentials).sever error =
      ((session.sever error).1, (session.sever error).2.withCredentials credentials) := rfl

/-- A name finds the same channel whatever pair is accepted. -/
theorem channel?_withCredentials (name : String) :
    (session.withCredentials credentials).channel? name = session.channel? name := rfl

/-- The same is heard whatever pair is accepted. -/
theorem listen_withCredentials (name : String) :
    (session.withCredentials credentials).listen name =
      ((session.listen name).1, (session.listen name).2.withCredentials credentials) := by
  unfold listen
  rw [channel?_withCredentials]
  cases session.channel? name <;> rfl

/-- What arrives has the same effect whatever pair is accepted. -/
theorem arrive_withCredentials (channel : Channel) (arrivals : List Exchange.Arrival) :
    (session.withCredentials credentials).arrive channel arrivals =
      ((session.arrive channel arrivals).1,
        (session.arrive channel arrivals).2.withCredentials credentials) := by
  have hserves : (session.withCredentials credentials).serves channel = session.serves channel :=
    rfl
  unfold arrive
  rw [hserves]
  split <;> rfl

/-- Closing a channel has the same effect whatever pair is accepted. -/
theorem closeChannel_withCredentials (channel : Channel) :
    (session.withCredentials credentials).closeChannel channel =
      ((session.closeChannel channel).1,
        (session.closeChannel channel).2.withCredentials credentials) := by
  unfold closeChannel endInput
  rw [arrive_withCredentials]
  rfl

/-- A channel is handed over alike whatever pair is accepted. -/
theorem handOver_withCredentials (before : Handover) :
    (session.withCredentials credentials).handOver before =
      ((session.handOver before).1, (session.handOver before).2.withCredentials credentials) := by
  have hhandover : (session.withCredentials credentials).handler.handover =
      session.handler.handover := rfl
  unfold handOver
  rw [hhandover]
  split <;> rfl

/-- A message on a channel does the same with another pair, if its effect does. -/
theorem onChannel_withCredentials (name : String)
    {effect : Session → Channel → List Event × Session}
    (heffect : ∀ session channel, effect (withCredentials session credentials) channel =
      ((effect session channel).1, (effect session channel).2.withCredentials credentials)) :
    (session.withCredentials credentials).onChannel name effect =
      (session.onChannel name effect).withCredentials credentials := by
  have hlink : (session.withCredentials credentials).link = session.link := rfl
  have hheard : (session.withCredentials credentials).heard =
      session.heard.withCredentials credentials := rfl
  unfold onChannel
  rw [channel?_withCredentials, hlink, hheard]
  cases session.channel? name with
  | none => rfl
  | some channel =>
    cases session.link.isUp with
    | false => simp [listen_withCredentials, Outcome.withCredentials]
    | true => simp [heffect, listen_withCredentials, Outcome.withCredentials]

/-- The question for a channel of a client that is authenticated is answered alike whatever pair is
accepted. -/
theorem request_withCredentials (name : String) (kind : ChannelKind) :
    (session.withCredentials credentials).request name kind =
      (session.request name kind).withCredentials credentials := by
  cases kind with
  | session =>
    have hopening : (session.withCredentials credentials).opening name =
        (session.opening name).withCredentials credentials := rfl
    rw [request_session, request_session, hopening, handOver_withCredentials,
      listen_withCredentials]
    rfl
  | x11 => rfl
  | directTcpip => rfl

/-- Any question for a channel is answered alike whatever pair is accepted. -/
theorem openChannel_withCredentials (name : String) (request : OpenRequest) :
    (session.withCredentials credentials).openChannel name request =
      (session.openChannel name request).withCredentials credentials := by
  have hlink : (session.withCredentials credentials).link = session.link := rfl
  have hauthenticated : (session.withCredentials credentials).authenticated =
      session.authenticated := rfl
  have hheard : (session.withCredentials credentials).heard =
      session.heard.withCredentials credentials := rfl
  unfold openChannel
  rw [hlink, hauthenticated, hheard, sever_withCredentials]
  cases session.link.isUp with
  | false => rfl
  | true =>
    cases session.authenticated with
    | false => rfl
    | true =>
      cases request with
      | decided kind => exact session.heard.request_withCredentials credentials name kind
      | streamlocal => rfl

/-- The ways to authenticate are told alike whatever pair is accepted. -/
theorem askMethods_withCredentials :
    (session.withCredentials credentials).askMethods =
      session.askMethods.withCredentials credentials := by
  have hlink : (session.withCredentials credentials).link = session.link := rfl
  have hauthenticated : (session.withCredentials credentials).authenticated =
      session.authenticated := rfl
  have hattempted : (session.withCredentials credentials).attempted = session.attempted := rfl
  unfold askMethods
  rw [hlink, hauthenticated, hattempted]
  cases session.link.isUp with
  | false => rfl
  | true =>
    cases session.authenticated with
    | true => rfl
    | false => cases session.attempted <;> rfl

end Parts

variable {here there : Credentials}

/-- An attempt does the same with another pair by which it is judged alike. Of the texts of the two
attempts, only the user name is reported. -/
theorem tryPassword_withCredentials (session : Session) {username password guess : String}
    (hjudge : here.judge username password = there.judge username guess) :
    (session.withCredentials there).tryPassword username guess =
      ((session.withCredentials here).tryPassword username password).withCredentials there := by
  have hlink (credentials : Credentials) :
      (session.withCredentials credentials).link = session.link := rfl
  have hauthenticated (credentials : Credentials) :
      (session.withCredentials credentials).authenticated = session.authenticated := rfl
  unfold tryPassword
  rw [hlink, hlink, hauthenticated, hauthenticated]
  cases session.link.isUp with
  | false => rfl
  | true =>
    cases session.authenticated with
    | true => rfl
    | false =>
      have hhere : (session.withCredentials here).handler.credentials.judge username password =
          there.judge username guess := hjudge
      have hthere : (session.withCredentials there).handler.credentials.judge username guess =
          there.judge username guess := rfl
      simp only [Handler.onPassword, heard, hhere, hthere]
      cases there.judge username guess <;> rfl

/-- Everything but an attempt does the same with any pair. -/
theorem act_withCredentials_of_ne (session : Session) (credentials : Credentials) {action : Action}
    (h : ∀ username password, action ≠ .password username password) :
    (session.withCredentials credentials).act action =
      (session.act action).withCredentials credentials := by
  cases action with
  | password username password => exact absurd rfl (h username password)
  | askMethods username => exact session.askMethods_withCredentials credentials
  | openChannel name request => exact session.openChannel_withCredentials credentials name request
  | send name bytes =>
    exact session.onChannel_withCredentials credentials name fun session channel =>
      session.arrive_withCredentials credentials channel _
  | endInput name =>
    exact session.onChannel_withCredentials credentials name fun session channel =>
      session.arrive_withCredentials credentials channel _
  | sendExtended name bytes =>
    have hnothing := @onChannel_withCredentials session credentials name
      (fun session _ => ([], session)) fun _ _ => rfl
    exact hnothing
  | closeChannel name =>
    exact session.onChannel_withCredentials credentials name fun session channel =>
      session.closeChannel_withCredentials credentials channel
  | connect | wait | disconnect | drop => rfl

/-- What a client does comes to the same with another pair, as long as an attempt is judged alike.
-/
theorem act_withCredentials (session : Session) {first second : Action}
    (h : first.Alike here there second) :
    (session.withCredentials there).act second =
      ((session.withCredentials here).act first).withCredentials there := by
  rcases h.cases with ⟨rfl, hnone⟩ | ⟨username, password, guess, rfl, rfl, hjudge⟩
  · exact (session.withCredentials here).act_withCredentials_of_ne there hnone
  · exact session.tryPassword_withCredentials hjudge

/-- Connecting passes the accepted pair on to the new session. -/
theorem connect_withCredentials (assignment : Assignment) (old : Option Session) :
    connect there assignment (old.map fun session => session.withCredentials there) =
      (connect here assignment
        (old.map fun session => session.withCredentials here)).withCredentials there := by
  have hbegun : (begin there assignment).elapse 0 =
      (((begin here assignment).elapse 0).1,
        ((begin here assignment).elapse 0).2.withCredentials there) := rfl
  have hlink : (((begin here assignment).elapse 0).2.withCredentials there).link =
      ((begin here assignment).elapse 0).2.link := rfl
  have hended : ((old.map fun session => session.withCredentials there).toList.flatMap
        fun session => (session.sever "early eof").1) =
      (old.map fun session => session.withCredentials here).toList.flatMap
        fun session => (session.sever "early eof").1 := by
    cases old <;> rfl
  unfold connect Outcome.withCredentials
  rw [hbegun, hended]
  simp only [hlink]
  cases ((begin here assignment).elapse 0).2.link.isUp <;> rfl

/-- What a client does, with a session or without, comes to the same with another pair, as long as
an attempt is judged alike. -/
theorem perform_withCredentials (assignment : Assignment) (session : Option Session)
    {first second : Action} (h : first.Alike here there second) :
    perform there assignment second (session.map fun session => session.withCredentials there) =
      (perform here assignment first
        (session.map fun session => session.withCredentials here)).withCredentials there := by
  have hact (session : Session) := session.act_withCredentials h
  rcases h.cases with ⟨rfl, -⟩ | ⟨username, password, guess, rfl, rfl, -⟩
  · cases second with
    | connect =>
      have hconnected := @connect_withCredentials here there assignment session
      cases session <;> exact hconnected
    | _ =>
      cases session with
      | none => rfl
      | some session => exact hact session
  · cases session with
    | none => rfl
    | some session => exact hact session

end Session

namespace Server

/-- A server that accepts another pair, and whose sessions do. -/
def withCredentials (server : Server) (credentials : Credentials) : Server :=
  { server with
    credentials
    sessions := server.sessions.map fun entry => (entry.1, entry.2.withCredentials credentials) }

section Steps

variable {here there : Credentials}

/-- A client has the same session whatever pair is accepted, but for that pair. -/
theorem session?_withCredentials (server : Server) (credentials : Credentials) (client : Client) :
    (server.withCredentials credentials).session? client =
      (server.session? client).map fun session => session.withCredentials credentials := by
  unfold session? withCredentials
  rw [List.find?_map, Option.map_map, Option.map_map]
  rfl

/-- Steps that are alike come to the same on servers that accept different pairs, but for these. -/
theorem outcome_withCredentials (server : Server) {first second : Step}
    (h : first.Alike here there second) :
    (server.withCredentials there).outcome second =
      ((server.withCredentials here).outcome first).withCredentials there := by
  have hassignment (credentials : Credentials) :
      (server.withCredentials credentials).assignment = server.assignment := rfl
  unfold outcome
  rw [session?_withCredentials, session?_withCredentials, hassignment, hassignment, h.client_eq]
  exact Session.perform_withCredentials _ _ h.action

/-- A step is answered in the same way with another pair, and leaves a server that is the same but
for the pair. -/
theorem step_withCredentials (server : Server) {first second : Step}
    (h : first.Alike here there second) :
    (server.withCredentials there).step second =
      (((server.withCredentials here).step first).1,
        ((server.withCredentials here).step first).2.withCredentials there) := by
  have houtcome := outcome_withCredentials server h
  have hothers (credentials : Credentials) (ms : Nat) :
      ((server.withCredentials credentials).others second.client).map
          (fun entry => (entry.1, entry.2.elapse ms)) =
        (server.others second.client).map fun entry =>
          (entry.1, (entry.2.elapse ms).1, (entry.2.elapse ms).2.withCredentials credentials) := by
    unfold others withCredentials
    rw [List.filter_map, List.map_map]
    rfl
  have hpending (credentials : Credentials) :
      (server.withCredentials credentials).pending = server.pending := rfl
  have htransport (session : Session) (credentials : Credentials) :
      (session.withCredentials credentials).transport = session.transport := rfl
  have hagain (session : Session) :
      (session.withCredentials here).withCredentials there = session.withCredentials there := rfl
  unfold step
  simp only [houtcome, hothers, h.client_eq, hpending]
  generalize (server.withCredentials here).outcome first = outcome
  obtain ⟨reply, events, duration, session⟩ := outcome
  cases session <;>
    simp [Outcome.withCredentials, withCredentials, htransport, hagain,
      Function.comp_def, List.flatMap_map]

/-- A whole run is answered in the same way with another pair. -/
theorem steps_withCredentials (server : Server) {steps others : List Step}
    (h : List.Forall₂ (Step.Alike here there) steps others) :
    ((server.withCredentials there).steps others).1 =
      ((server.withCredentials here).steps steps).1 := by
  induction h generalizing server with
  | nil => rfl
  | @cons first second rest remaining hfirst hrest ih =>
    have hsame : ((server.withCredentials here).step first).2 =
        ((server.withCredentials here).step first).2.withCredentials here :=
      congrArg Prod.snd
        (server.step_withCredentials (Step.alike_refl here first))
    have hremaining := ih ((server.withCredentials here).step first).2
    rw [← hsame] at hremaining
    simp only [Server.steps, server.step_withCredentials hfirst, hremaining]

end Steps

end Server

/-- Two servers that differ only in the password that they accept answer all steps in the same way,
as long as every password that is tried is right on both or wrong on both: the same replies, the
same states of the transports, and the same events, so also the same lines of the log. What may be
shown of the two accepted pairs is the same, too. -/
theorem passwords_do_not_show (address : String) (context : Context) (password : String)
    {steps others : List Step}
    (h : List.Forall₂
      (Step.Alike context.credentials (context.withPassword password).credentials) steps others) :
    ((Server.start address (context.withPassword password)).steps others).1 =
      ((Server.start address context).steps steps).1 ∧
    (context.withPassword password).credentials.describe = context.credentials.describe := by
  refine ⟨?_, Credentials.describe_eq_of_username_eq rfl⟩
  exact (Server.start address context).steps_withCredentials h

/-- A client mistypes the password, gets it right and opens a channel; on another server, the first
guess is the password that the first server accepts. -/
theorem passwords_do_not_show_in_logins :
    let context : Context := .withHostKey ⟨"user", "secret"⟩ 20 ⟨[]⟩
    let course (first second : String) : List Step :=
      [.connect, .password "user" first, .password "user" second,
        .openChannel "shell" (.decided .session)].map fun action => ⟨"127.0.0.1:4022", action⟩
    List.Forall₂ (Step.Alike context.credentials (context.withPassword "hidden").credentials)
      (course "guess" "secret") (course "secret" "hidden") ∧
    ((Server.start "127.0.0.1:2222" (context.withPassword "hidden")).steps
        (course "secret" "hidden")).1 =
      ((Server.start "127.0.0.1:2222" context).steps (course "guess" "secret")).1 := by
  intro context course
  have halike : List.Forall₂
      (Step.Alike context.credentials (context.withPassword "hidden").credentials)
      (course "guess" "secret") (course "secret" "hidden") :=
    .cons ⟨rfl, rfl, by decide⟩ <| .cons ⟨rfl, rfl, by decide⟩ <| .cons ⟨rfl, rfl, by decide⟩ <|
      .cons ⟨rfl, rfl, by decide⟩ .nil
  exact ⟨halike, (passwords_do_not_show "127.0.0.1:2222" context "hidden" halike).1⟩

end PongFixture.Ssh
