import PongFixture.Ssh.Handler

/-!
# The handler passes on one channel at most

A handler answers every callback by the policy alone: what came before makes no difference, and
neither does a worker that has ceased to wait. The one-time way to the worker is another matter. Its
sender is held until the first session open, which uses it up whether or not somebody still
receives; so at most one channel reaches the worker, and it is that of the first session open.
-/

set_option autoImplicit false

namespace PongFixture.Ssh

/-- Whether a callback is a question for a session channel. -/
def Callback.asksForSession : Callback → Bool
  | .openChannel .session _ => true
  | _ => false

/-- A callback asks for a session channel exactly if it opens one of that kind. -/
theorem Callback.asksForSession_iff {callback : Callback} :
    callback.asksForSession = true ↔ ∃ channel, callback = .openChannel .session channel := by
  constructor
  · intro h
    unfold asksForSession at h
    split at h
    · exact ⟨_, rfl⟩
    · contradiction
  · rintro ⟨channel, rfl⟩
    rfl

namespace Handler

/-- The channels that reach the worker over a series of callbacks: what is delivered anew. -/
def deliveries (handler : Handler) : List Callback → List ChannelId
  | [] => []
  | callback :: callbacks =>
    let next := (handler.step callback).2.2
    (if next.handover.delivered = handler.handover.delivered then []
      else next.handover.delivered.toList) ++ next.deliveries callbacks

/-- Two series of callbacks are answered one after the other. -/
theorem steps_append (handler : Handler) (first second : List Callback) :
    handler.steps (first ++ second) =
      ((handler.steps first).1 ++ ((handler.steps first).2.steps second).1,
        ((handler.steps first).2.steps second).2) := by
  induction first generalizing handler with
  | nil => rfl
  | cons callback first ih => simp only [List.cons_append, steps, ih]

/-- What two series of callbacks deliver is delivered by one after the other. -/
theorem deliveries_append (handler : Handler) (first second : List Callback) :
    handler.deliveries (first ++ second) =
      handler.deliveries first ++ (handler.steps first).2.deliveries second := by
  induction first generalizing handler with
  | nil => rfl
  | cons callback first ih => simp only [List.cons_append, deliveries, steps, ih, List.append_assoc]

/-! ## The answers -/

/-- A password is accepted exactly with the name and the text of the handler's own pair. -/
theorem answer_step_password (handler : Handler) (username password : String) :
    (handler.step (.password username password)).1 =
      if username = handler.credentials.username ∧ password = handler.credentials.password then
        .accepted
      else .rejected methods := by
  unfold step onPassword
  by_cases hpair : username = handler.credentials.username ∧
      password = handler.credentials.password
  · have hverdict := (handler.credentials.judge_eq_successful_iff username password).mpr hpair
    simp only [hverdict, if_pos hpair]
  · have hverdict : handler.credentials.judge username password = .failed := by
      unfold Credentials.judge
      exact if_neg hpair
    simp only [hverdict, if_neg hpair]

/-- A channel is opened exactly if it is a session channel. -/
theorem answer_step_openChannel (handler : Handler) (kind : ChannelKind) (channel : ChannelId) :
    (handler.step (.openChannel kind channel)).1 = .opened (decide (kind = .session)) := by
  cases kind <;> rfl

/-- The answer to a callback depends on nothing but the accepted pair. -/
theorem answer_step_congr {handler other : Handler} (h : other.credentials = handler.credentials)
    (callback : Callback) : (other.step callback).1 = (handler.step callback).1 := by
  cases callback with
  | password username password => rw [answer_step_password, answer_step_password, h]
  | openChannel kind channel => rw [answer_step_openChannel, answer_step_openChannel]
  | abandoned => rfl

/-- Every callback is answered as if it were the first. -/
theorem answers_steps (handler : Handler) (callbacks : List Callback) :
    (handler.steps callbacks).1 = callbacks.map fun callback => (handler.step callback).1 := by
  have hsame (other : Handler) (h : other.credentials = handler.credentials) :
      (other.steps callbacks).1 = callbacks.map fun callback => (handler.step callback).1 := by
    induction callbacks generalizing other with
    | nil => rfl
    | cons callback callbacks ih =>
      have hnext : (other.step callback).2.2.credentials = handler.credentials := by
        rw [credentials_step, h]
      simp only [steps, List.map_cons]
      rw [answer_step_congr h callback, ih _ hnext]
  exact hsame handler rfl

/-! ## The one-time way -/

/-- A callback that asks for no session channel leaves the way alone, but that the worker may cease
to wait. -/
theorem handover_step_of_quiet (handler : Handler) {callback : Callback}
    (h : callback.asksForSession = false) :
    (handler.step callback).2.2.handover =
      { handler.handover with
        receiverAlive := handler.handover.receiverAlive && !decide (callback = .abandoned) } := by
  cases callback with
  | password username password => simp [step]
  | openChannel kind channel =>
    cases kind with
    | session => contradiction
    | x11 => simp [step, onOpen, admission]
    | directTcpip => simp [step, onOpen, admission]
  | abandoned => simp [step, Handover.abandon]

/-- Until the first session open nothing is used up and nothing delivered. -/
theorem handover_steps_of_quiet (handler : Handler) (callbacks : List Callback)
    (h : ∀ callback ∈ callbacks, callback.asksForSession = false) :
    (handler.steps callbacks).2.handover =
        { handler.handover with
          receiverAlive :=
            handler.handover.receiverAlive && !decide (Callback.abandoned ∈ callbacks) } ∧
      handler.deliveries callbacks = [] := by
  induction callbacks generalizing handler with
  | nil => simp [steps, deliveries]
  | cons callback callbacks ih =>
    have hfirst := handover_step_of_quiet handler (h callback (by simp))
    obtain ⟨hsteps, hnone⟩ := ih (handler.step callback).2.2 fun later hlater =>
      h later (by simp [hlater])
    constructor
    · unfold steps
      rw [hsteps, hfirst]
      by_cases hgone : callback = .abandoned
      · simp [hgone]
      · simp [hgone, Ne.symm hgone]
    · unfold deliveries
      simp only [hfirst, hnone, if_true, List.append_nil]

/-- A session open passes its channel on if the sender is held, and uses the sender up. -/
theorem handover_step_session (handler : Handler) (channel : ChannelId) :
    (handler.step (.openChannel .session channel)).2.2.handover =
      handler.handover.pass channel := rfl

/-- Once the sender is used up, the delivery stays what it is. -/
theorem handover_steps_of_spent (handler : Handler) (callbacks : List Callback)
    (h : handler.handover.senderHeld = false) :
    (handler.steps callbacks).2.handover.senderHeld = false ∧
      (handler.steps callbacks).2.handover.delivered = handler.handover.delivered ∧
      handler.deliveries callbacks = [] := by
  induction callbacks generalizing handler with
  | nil => exact ⟨h, rfl, rfl⟩
  | cons callback callbacks ih =>
    have hstep : (handler.step callback).2.2.handover.senderHeld = false ∧
        (handler.step callback).2.2.handover.delivered = handler.handover.delivered := by
      cases hasks : callback.asksForSession with
      | false =>
        rw [handover_step_of_quiet _ hasks]
        exact ⟨h, rfl⟩
      | true =>
        obtain ⟨channel, rfl⟩ := Callback.asksForSession_iff.mp hasks
        rw [handover_step_session]
        simp [Handover.pass, h]
    obtain ⟨hsender, hdelivered, hnone⟩ := ih (handler.step callback).2.2 hstep.1
    refine ⟨hsender, hdelivered.trans hstep.2, ?_⟩
    unfold deliveries
    simp only [hstep.2, hnone, if_true, List.append_nil]

/-- After the first session open the sender is used up, and its channel is delivered if the worker
had not ceased to wait. -/
theorem handover_steps_of_session (credentials : Credentials) (peer : String)
    (before after : List Callback) (channel : ChannelId)
    (h : ∀ callback ∈ before, callback.asksForSession = false) :
    let callbacks := before ++ .openChannel .session channel :: after
    let delivered := if Callback.abandoned ∈ before then none else some channel
    ((new credentials peer).steps callbacks).2.handover.senderHeld = false ∧
      ((new credentials peer).steps callbacks).2.handover.delivered = delivered ∧
      (new credentials peer).deliveries callbacks = delivered.toList := by
  intro callbacks delivered
  obtain ⟨hbefore, hnone⟩ := handover_steps_of_quiet (new credentials peer) before h
  have hfirst : ((((new credentials peer).steps before).2.step
      (.openChannel .session channel)).2.2).handover =
        ⟨false, !decide (Callback.abandoned ∈ before), delivered⟩ := by
    rw [handover_step_session, hbefore]
    by_cases hgone : Callback.abandoned ∈ before
    · simp [Handover.pass, new, Handover.new, delivered, hgone]
    · simp [Handover.pass, new, Handover.new, delivered, hgone]
  obtain ⟨hsender, hdelivered, hlater⟩ := handover_steps_of_spent
    (((new credentials peer).steps before).2.step (.openChannel .session channel)).2.2 after
    (by rw [hfirst])
  rw [hfirst] at hdelivered
  refine ⟨?_, ?_, ?_⟩
  · rw [steps_append]
    exact hsender
  · rw [steps_append]
    exact hdelivered
  · have hnew : ((new credentials peer).steps before).2.handover.delivered = none := by
      rw [hbefore]
      rfl
    rw [deliveries_append, hnone, List.nil_append]
    unfold deliveries
    simp only [hfirst, hnew, hlater, List.append_nil]
    cases delivered with
    | none => rfl
    | some passed => rfl

/-- A handler does not change by a password attempt or by a question that it refuses. -/
theorem step_eq_self {handler : Handler} {callback : Callback}
    (h : callback.asksForSession = false) (hstays : callback ≠ .abandoned) :
    (handler.step callback).2.2 = handler := by
  cases callback with
  | password username password => rfl
  | openChannel kind channel =>
    cases kind with
    | session => contradiction
    | x11 => rfl
    | directTcpip => rfl
  | abandoned => contradiction

/-- A callback that leaves the handler as it is may be left out. -/
theorem steps_without (handler : Handler) (before after : List Callback) {callback : Callback}
    (h : callback.asksForSession = false) (hstays : callback ≠ .abandoned) :
    (handler.steps (before ++ callback :: after)).2 = (handler.steps (before ++ after)).2 ∧
      handler.deliveries (before ++ callback :: after) =
        handler.deliveries (before ++ after) := by
  have hsame : ((handler.steps before).2.step callback).2.2 = (handler.steps before).2 :=
    step_eq_self h hstays
  constructor
  · rw [steps_append, steps_append]
    simp only [steps, hsame]
  · rw [deliveries_append, deliveries_append]
    simp only [deliveries, hsame, if_true, List.nil_append]

/-! ## Whole series -/

/-- Where no session channel is asked for, no callback asks for one. -/
theorem asksForSession_of_not_mem {callbacks : List Callback}
    (h : ∀ channel, Callback.openChannel .session channel ∉ callbacks) :
    ∀ callback ∈ callbacks, callback.asksForSession = false := by
  intro callback hmem
  apply Bool.eq_false_iff.mpr
  intro hasks
  obtain ⟨channel, rfl⟩ := Callback.asksForSession_iff.mp hasks
  exact h channel hmem

/-- Either no session open has come, or there is a first one. -/
theorem first_session_cases (callbacks : List Callback) :
    (∀ channel, Callback.openChannel .session channel ∉ callbacks) ∨
      ∃ before channel after, callbacks = before ++ .openChannel .session channel :: after ∧
        ∀ callback ∈ before, callback.asksForSession = false := by
  cases hfind : callbacks.find? Callback.asksForSession with
  | none =>
    left
    intro channel hmem
    exact absurd rfl (List.find?_eq_none.mp hfind _ hmem)
  | some callback =>
    right
    obtain ⟨hasks, before, after, hsplit, hbefore⟩ := List.find?_eq_some_iff_append.mp hfind
    obtain ⟨channel, rfl⟩ := Callback.asksForSession_iff.mp hasks
    refine ⟨before, channel, after, hsplit, ?_⟩
    intro earlier hearlier
    simpa using hbefore earlier hearlier

section Series

variable (credentials : Credentials) (peer : String)

/-- As long as no session channel is asked for, the handler holds the sender and nothing has been
delivered. -/
theorem handover_steps_of_not_mem {callbacks : List Callback}
    (h : ∀ channel, Callback.openChannel .session channel ∉ callbacks) :
    ((new credentials peer).steps callbacks).2.handover.senderHeld = true ∧
      ((new credentials peer).steps callbacks).2.handover.delivered = none ∧
      (new credentials peer).deliveries callbacks = [] := by
  obtain ⟨hsteps, hnone⟩ :=
    handover_steps_of_quiet (new credentials peer) callbacks (asksForSession_of_not_mem h)
  rw [hsteps]
  exact ⟨rfl, rfl, hnone⟩

/-- The handler holds the sender exactly as long as no session channel has been asked for. -/
theorem senderHeld_steps_iff (callbacks : List Callback) :
    ((new credentials peer).steps callbacks).2.handover.senderHeld = true ↔
      ∀ channel, Callback.openChannel .session channel ∉ callbacks := by
  constructor
  · intro hheld
    rcases first_session_cases callbacks with hnever | ⟨before, channel, after, hsplit, hbefore⟩
    · exact hnever
    · have hspent := (handover_steps_of_session credentials peer before after channel hbefore).1
      rw [hsplit, hspent] at hheld
      contradiction
  · intro hnever
    exact (handover_steps_of_not_mem credentials peer hnever).1

/-- All that reaches the worker is the channel that stands as delivered in the end. -/
theorem deliveries_eq_delivered (callbacks : List Callback) :
    (new credentials peer).deliveries callbacks =
      ((new credentials peer).steps callbacks).2.handover.delivered.toList := by
  rcases first_session_cases callbacks with hnever | ⟨before, channel, after, hsplit, hbefore⟩
  · obtain ⟨-, hdelivered, hnone⟩ := handover_steps_of_not_mem credentials peer hnever
    rw [hdelivered, hnone]
    rfl
  · have hpassed := handover_steps_of_session credentials peer before after channel hbefore
    rw [hsplit, hpassed.2.1, hpassed.2.2]

end Series

/-- Over any series of callbacks, in any order and with the worker gone at any point of it, a handler
opens session channels and no others, accepts the configured pair and no other and leaves a rejected
client the password to go on with, whatever came before. It holds the sender exactly as long as no
session open has come. At most one channel reaches the worker: that of the first session open, if
the worker had not ceased to wait by then. Password attempts and refused questions may be left out
without a difference to what is held and delivered. -/
theorem first_session_is_handed_over (credentials : Credentials) (peer : String)
    (callbacks : List Callback) :
    let handler := new credentials peer
    (handler.steps callbacks).1.length = callbacks.length ∧
    (∀ (i : Nat) (kind : ChannelKind) (channel : ChannelId),
      callbacks[i]? = some (.openChannel kind channel) →
      ∃ allowed, (handler.steps callbacks).1[i]? = some (.opened allowed) ∧
        (allowed = true ↔ kind = .session)) ∧
    (∀ (i : Nat) (username password : String),
      callbacks[i]? = some (.password username password) →
      ((handler.steps callbacks).1[i]? = some .accepted ↔
        username = credentials.username ∧ password = credentials.password) ∧
      ((handler.steps callbacks).1[i]? ≠ some .accepted →
        (handler.steps callbacks).1[i]? = some (.rejected [.password]))) ∧
    ((handler.steps callbacks).2.handover.senderHeld = true ↔
      ∀ channel, Callback.openChannel .session channel ∉ callbacks) ∧
    (handler.deliveries callbacks).length ≤ 1 ∧
    handler.deliveries callbacks = (handler.steps callbacks).2.handover.delivered.toList ∧
    ((∀ channel, Callback.openChannel .session channel ∉ callbacks) →
      handler.deliveries callbacks = []) ∧
    (∀ (before after : List Callback) (channel : ChannelId),
      callbacks = before ++ .openChannel .session channel :: after →
      (∀ earlier, Callback.openChannel .session earlier ∉ before) →
      handler.deliveries callbacks = if Callback.abandoned ∈ before then [] else [channel]) ∧
    ∀ (before after : List Callback) (callback : Callback),
      callbacks = before ++ callback :: after →
      ((∃ username password, callback = .password username password) ∨
        ∃ kind channel, kind ≠ .session ∧ callback = .openChannel kind channel) →
      (handler.steps callbacks).2 = (handler.steps (before ++ after)).2 ∧
        handler.deliveries callbacks = handler.deliveries (before ++ after) := by
  intro handler
  have hanswers := answers_steps handler callbacks
  have hdeliveries := deliveries_eq_delivered credentials peer callbacks
  refine ⟨?_, ?_, ?_, senderHeld_steps_iff credentials peer callbacks, ?_, hdeliveries, ?_, ?_, ?_⟩
  · rw [hanswers, List.length_map]
  · intro i kind channel hcallback
    refine ⟨decide (kind = .session), ?_, by simp⟩
    rw [hanswers, List.getElem?_map, hcallback, Option.map_some, answer_step_openChannel]
  · intro i username password hcallback
    rw [hanswers, List.getElem?_map, hcallback, Option.map_some, answer_step_password]
    by_cases hpair : username = credentials.username ∧ password = credentials.password
    · simp [handler, new, hpair]
    · simp [handler, new, hpair, methods]
  · rw [hdeliveries]
    exact Option.length_toList_le
  · intro hnever
    exact (handover_steps_of_not_mem credentials peer hnever).2.2
  · intro before after channel hsplit hearlier
    have hbefore := asksForSession_of_not_mem hearlier
    have hpassed := handover_steps_of_session credentials peer before after channel hbefore
    rw [hsplit, hpassed.2.2]
    split <;> rfl
  · intro before after callback hsplit hrefused
    rw [hsplit]
    rcases hrefused with ⟨username, password, rfl⟩ | ⟨kind, channel, hkind, rfl⟩
    · exact steps_without handler before after rfl (by simp)
    · have hquiet : (Callback.openChannel kind channel).asksForSession = false := by
        cases kind with
        | session => contradiction
        | x11 => rfl
        | directTcpip => rfl
      exact steps_without handler before after hquiet (by simp)

end Handler

end PongFixture.Ssh
