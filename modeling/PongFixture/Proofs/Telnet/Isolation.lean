import PongFixture.Proofs.Telnet.Books

/-!
# Telnet clients do not get in each other's way

What a client is answered is decided by its own steps (`own_steps_decide`): the answers are those of
the run in which nobody else does anything. The one line that is meant for no client is the
announcement of the server, which opens the answer to the first step, whoever makes it; an answer is
compared apart from it.

Two runs are followed side by side, one with all steps and one with those of the client. In both the
worker of the client stands in the same place: a step of another client leaves it there
(`find?_perform`), and what a step of the client comes to depends on that place alone
(`perform_congr`).
-/

set_option autoImplicit false

namespace PongFixture.Telnet

open Exchange

/-- Whether an event announces a server. -/
def announces (event : Event) : Bool := event.message == "Server listening"

/-- An answer apart from the announcement of the server. -/
def Answer.apart (answer : Answer) : Answer :=
  { answer with events := answer.events.filter fun event => !announces event }

/-- The steps of one client, in their order. -/
def ownSteps (client : Client) (steps : List Step) : List Step :=
  steps.filter fun step => step.client = client

/-! ## The announcement -/

section Announcement

variable (client : Client) (server : Server)

/-- A worker announces nothing, whatever it does and wherever it comes to stand. -/
theorem not_announces_worker (acts : List Act) (standing : Standing) :
    ∀ event ∈ eventsOf (received client) acts ++ conclusion client standing,
      announces event = false := by
  intro event hevent
  rcases List.mem_append.mp hevent with hact | hend
  · obtain ⟨act, -, hact⟩ := List.mem_flatMap.mp hact
    cases act with
    | chunk bytes =>
      obtain rfl := List.mem_singleton.mp hact
      apply beq_eq_false_iff_ne.mpr
      intro hmessage
      simpa [received] using congrArg String.toList hmessage
    | ended replies =>
      obtain rfl := List.mem_singleton.mp hact
      rfl
    | _ => cases hact
  · cases standing with
    | waiting => cases hend
    | finished result =>
      obtain rfl := List.mem_singleton.mp hend
      cases result <;> rfl

/-- What a worker reports of its stream announces no server. -/
theorem not_announces_advance (standing : Standing) (arrivals : List Arrival) :
    ∀ event ∈ (advance client standing arrivals).2.1, announces event = false := by
  cases standing with
  | finished result =>
    intro event hevent
    cases hevent
  | waiting buffer sink replies => exact not_announces_worker client _ _

/-- What is reported of a new connection announces no server. -/
theorem not_announces_connect :
    ∀ event ∈ (server.connect client).1.events, announces event = false := by
  intro event hevent
  rw [connect_eq] at hevent
  rcases List.mem_append.mp hevent with haccepted | hold
  · obtain rfl := List.mem_singleton.mp haccepted
    rfl
  · obtain ⟨connection, -, hended⟩ := List.mem_flatMap.mp hold
    exact not_announces_advance _ _ _ event hended

/-- What a client does makes no server announce itself. -/
theorem not_announces_perform (deed : Deed) :
    ∀ event ∈ (server.perform client deed).1.events, announces event = false := by
  cases deed with
  | connect => exact not_announces_connect client server
  | send bytes =>
    cases hfind : server.find? client with
    | none => simp [Server.perform, hfind]
    | some connection =>
      simp only [Server.perform, hfind]
      exact not_announces_advance client _ _
  | shutdown | drop | reset =>
    cases hfind : server.find? client with
    | none => simp [Server.perform, hfind]
    | some connection =>
      simp only [Server.perform, hfind]
      exact not_announces_advance _ _ _

/-- The announcement of a server announces one. -/
theorem announces_announcement :
    ∀ event ∈ server.announcement, announces event = true := by
  intro event hevent
  unfold Server.announcement at hevent
  split at hevent
  · cases hevent
  · obtain rfl := List.mem_singleton.mp hevent
    rfl

end Announcement

/-- An answer that announces nothing is what it is apart from the announcement. -/
theorem apart_eq_self {answer : Answer} (h : ∀ event ∈ answer.events, announces event = false) :
    answer.apart = answer := by
  have hkept : answer.events.filter (fun event => !announces event) = answer.events := by
    apply List.filter_eq_self.mpr
    intro event hevent
    simp [h event hevent]
  unfold Answer.apart
  rw [hkept]

/-- Apart from the announcement, a step is answered as what its client does. -/
theorem apart_step (server : Server) (step : Step) :
    (server.step step).1.apart =
      (Server.perform { server with announced := true } step.client step.deed).1 := by
  have hnone : server.announcement.filter (fun event => !announces event) = [] := by
    apply List.filter_eq_nil_iff.mpr
    intro event hevent
    simp [announces_announcement server event hevent]
  have hrest := apart_eq_self
    (not_announces_perform step.client { server with announced := true } step.deed)
  unfold Server.step
  simp only [Answer.apart, List.filter_append, hnone, List.nil_append] at hrest ⊢
  exact hrest

/-- What is apart from an answer is the announcement, which comes first. -/
theorem events_step (server : Server) (step : Step) :
    (server.step step).1.events = server.announcement ++ (server.step step).1.apart.events := by
  rw [apart_step]
  rfl

/-- Once a server is announced it stays so. -/
theorem announced_perform (server : Server) (client : Client) (deed : Deed) :
    (server.perform client deed).2.announced = server.announced := by
  cases deed with
  | connect => rfl
  | send | shutdown | drop | reset =>
    cases hfind : server.find? client with
    | none => simp only [Server.perform, hfind]
    | some connection =>
      simp only [Server.perform, hfind]
      rfl

/-- A server that has been announced is not announced again. -/
theorem apart_of_announced {server : Server} (h : server.announced = true) (steps : List Step) :
    ∀ answer ∈ (server.steps steps).1, answer.apart = answer := by
  induction steps generalizing server with
  | nil =>
    intro answer hanswer
    cases hanswer
  | cons first rest ih =>
    have hfirst : (server.step first).1.apart = (server.step first).1 := by
      rw [apart_step]
      simp [Server.step, Server.announcement, h]
    have hnext : (server.step first).2.announced = true := announced_perform _ _ _
    intro answer hanswer
    rcases List.mem_cons.mp hanswer with rfl | hlater
    · exact hfirst
    · exact ih hnext answer hlater

/-! ## Two runs side by side -/

section Runs

variable {client : Client} {server other : Server}

/-- What a client does comes to the same on two servers where its worker stands in the same place,
and leaves it in the same place on both. -/
theorem perform_congr (h : server.find? client = other.find? client) (deed : Deed) :
    (server.perform client deed).1 = (other.perform client deed).1 ∧
      (server.perform client deed).2.find? client =
        (other.perform client deed).2.find? client := by
  cases deed with
  | connect =>
    simp only [Server.perform, connect_eq, find?_withStanding_self, h, and_self]
  | send bytes =>
    cases hfind : other.find? client with
    | none => simp only [Server.perform, h, hfind, and_self]
    | some connection =>
      simp only [Server.perform, h, hfind, find?_withStanding_self, and_self]
  | shutdown | drop | reset =>
    cases hfind : other.find? client with
    | none => simp only [Server.perform, h, hfind, and_self]
    | some connection =>
      have hclient := client_of_find? hfind
      simp only [Server.perform, h, hfind, Server.finish, hclient, find?_without_self, and_self]

/-- What the others do makes no difference to a client whose worker stands in the same place. -/
theorem answersTo_eq_ownSteps (h : server.find? client = other.find? client)
    (steps : List Step) :
    (answersTo client (steps.zip (server.steps steps).1)).map Answer.apart =
      ((other.steps (ownSteps client steps)).1).map Answer.apart := by
  induction steps generalizing server other with
  | nil => rfl
  | cons first rest ih =>
    by_cases hclient : first.client = client
    · obtain ⟨name, deed⟩ := first
      obtain rfl : name = client := hclient
      have hannounced : Server.find? { server with announced := true } name =
          Server.find? { other with announced := true } name := h
      obtain ⟨hanswer, hnext⟩ := perform_congr hannounced deed
      have hsame : (server.step ⟨name, deed⟩).1.apart = (other.step ⟨name, deed⟩).1.apart := by
        rw [apart_step, apart_step]
        exact hanswer
      have hrest := @ih (server.step ⟨name, deed⟩).2 (other.step ⟨name, deed⟩).2 hnext
      simp only [ownSteps, answersTo] at hrest ⊢
      simp [Server.steps, hsame, hrest]
    · have hstays := find?_perform (Ne.symm hclient) { server with announced := true } first.deed
      have hrest := @ih (server.step first).2 other (hstays.trans h)
      simp only [ownSteps, answersTo] at hrest ⊢
      simp [Server.steps, hclient, hrest]

end Runs

/-- Every step is answered. What a client is answered over any course of steps is what it is
answered in the run of its own steps, so any two courses in which it does the same are answered to
it in the same way. That is apart from the announcement of the server, which is the first event of
the first answer and stands nowhere else. -/
theorem own_steps_decide (address : String) (steps : List Step) (client : Client) :
    let shown := fun steps => ((Server.start address).steps steps).1
    let seen := fun steps => (answersTo client (steps.zip (shown steps))).map Answer.apart
    (∀ course, (shown course).length = course.length) ∧
    seen steps = (shown (ownSteps client steps)).map Answer.apart ∧
    (∀ others, ownSteps client others = ownSteps client steps → seen others = seen steps) ∧
    ∀ first rest, shown steps = first :: rest →
      first.events = Listener.listening protocolName address :: first.apart.events ∧
        ∀ answer ∈ rest, answer.apart = answer := by
  intro shown seen
  have hown (course : List Step) :
      seen course = (shown (ownSteps client course)).map Answer.apart :=
    answersTo_eq_ownSteps rfl course
  refine ⟨Server.length_steps _, hown steps, ?_, ?_⟩
  · intro others hsame
    rw [hown others, hown steps, hsame]
  · intro first rest hshown
    cases steps with
    | nil => cases hshown
    | cons step later =>
      obtain ⟨hfirst, hrest⟩ := List.cons.inj hshown
      rw [← hfirst, ← hrest]
      exact ⟨events_step _ step, apart_of_announced (announced_perform _ _ _) later⟩

end PongFixture.Telnet
