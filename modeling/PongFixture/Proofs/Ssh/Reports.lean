import PongFixture.Proofs.Exchange.Resumption
import PongFixture.Ssh.Worker

/-!
# What a worker reports

The happenings of a connection decide its fate: the version exchange fails or not, and then the
first of a channel, the end of the session and the end of patience counts (`Fate.of`). The deeds of
the worker depend on the happenings only through that fate (`deeds_steps`). From this form of them
follow the laws of the log: one error at most, and exactly when the fate has one; one disconnect and
one last line whenever the transport was up; and no line that belongs to another fate.
-/

set_option autoImplicit false

namespace PongFixture

/-- Whether the message of an event begins with a text. -/
def Event.opensWith (event : Event) (text : String) : Bool :=
  text.toList.isPrefixOf event.message.toList

namespace Ssh

open Exchange

/-! ## The fate of a connection -/

/-- What becomes of a connection, as far as its happenings tell. -/
inductive Fate
  | connecting
  | setupFailed (message : String)
  | awaiting
  | timedOut
  | sessionOver (error : Option String)
  | serving (sink : Sink) (arrivals : List Arrival)

/-- All that arrives over a series of happenings. -/
def arrivalsOf (happenings : List Happening) : List Arrival :=
  happenings.flatMap fun
    | .arrived arrivals => arrivals
    | _ => []

/-- The exchange on a channel: its acts, and where it stands after all that has arrived. -/
def conversation (sink : Sink) (arrivals : List Arrival) : List Act × Standing :=
  ((greet banner sink).1 ++ ((greet banner sink).2.resume banner arrivals).1,
    ((greet banner sink).2.resume banner arrivals).2)

/-- The error by which an exchange is over. -/
def errorOf : Standing → Option String
  | .finished (.error fault) => some fault.message
  | _ => none

/-- Whether an exchange is over. -/
def isOver : Standing → Bool
  | .finished _ => true
  | .waiting .. => false

namespace Fate

/-- The fate of a connection after its version exchange. -/
def afterSetup : List Happening → Fate
  | [] => .awaiting
  | .channelPassed sink :: later => .serving sink (arrivalsOf later)
  | .sessionEnded error :: _ => .sessionOver error
  | .waitedTooLong :: _ => .timedOut
  | _ :: later => afterSetup later

/-- The fate of a connection from its beginning. -/
def of : List Happening → Fate
  | [] => .connecting
  | .setupFailed message :: _ => .setupFailed message
  | .setupDone :: later => afterSetup later
  | _ :: later => of later

/-- The error that a connection comes to. -/
def error? : Fate → Option String
  | .setupFailed message => some message
  | .sessionOver error => error
  | .serving sink arrivals => errorOf (conversation sink arrivals).2
  | _ => none

/-- Whether the worker leaves a transport that was up. -/
def closes : Fate → Bool
  | .timedOut | .sessionOver _ => true
  | .serving sink arrivals => isOver (conversation sink arrivals).2
  | _ => false

/-- Whether nothing is left to do for the worker. -/
def isSettled : Fate → Bool
  | .setupFailed _ => true
  | fate => fate.closes

/-- What the worker does before it leaves. -/
def service (assignment : Assignment) : Fate → List Deed
  | .timedOut => [assignment.impatience]
  | .serving sink arrivals => deedsOf (conversation sink arrivals).1
  | _ => []

/-- What the worker does up to its farewell: its service, and the report of an error. -/
def untilFarewell (assignment : Assignment) (fate : Fate) : List Deed :=
  fate.service assignment ++ (fate.error?.map assignment.complaint).toList

/-- All that the worker does. When the version exchange fails there is no farewell. -/
def deeds (assignment : Assignment) (fate : Fate) : List Deed :=
  fate.untilFarewell assignment ++ if fate.closes then assignment.farewell else []

end Fate

/-! ## The deeds by the fate -/

/-- Whether a worker has left. -/
def Stage.hasLeft : Stage → Bool
  | .left => true
  | _ => false

/-- The deeds of acts in sequence come in the same sequence. -/
@[simp] theorem deedsOf_append (first second : List Act) :
    deedsOf (first ++ second) = deedsOf first ++ deedsOf second := by
  simp [deedsOf]

/-- A worker that has left does nothing any more. -/
@[simp] theorem Stage.steps_left (assignment : Assignment) (happenings : List Happening) :
    Stage.steps assignment .left happenings = ([], .left) := by
  induction happenings with
  | nil => rfl
  | cons happening happenings ih => simp [steps, ih]

/-- What a worker does when an exchange has come to stand somewhere: the deeds of the acts, and it
leaves if the exchange is over. -/
theorem afterActs_eq (assignment : Assignment) (acts : List Act) (standing : Standing) :
    (afterActs assignment acts standing).1 =
        deedsOf acts ++ ((errorOf standing).map assignment.complaint).toList ++
          (if isOver standing then assignment.farewell else []) ∧
      (afterActs assignment acts standing).2.hasLeft = isOver standing := by
  cases standing with
  | waiting buffer sink replies => simp [afterActs, errorOf, isOver, Stage.hasLeft]
  | finished result =>
    cases result <;>
      simp [afterActs, errorOf, isOver, Stage.hasLeft, Assignment.leave]

/-- A worker that has come to stand somewhere goes on with the exchange over all that arrives. -/
theorem steps_afterActs (assignment : Assignment) (acts : List Act) (standing : Standing)
    (happenings : List Happening) :
    let stood := afterActs assignment acts standing
    let resumed := standing.resume banner (arrivalsOf happenings)
    let later := afterActs assignment (acts ++ resumed.1) resumed.2
    stood.1 ++ (stood.2.steps assignment happenings).1 = later.1 ∧
      (stood.2.steps assignment happenings).2.hasLeft = later.2.hasLeft := by
  -- What has been done so far is generalized: every arrival adds to it.
  induction happenings generalizing acts standing with
  | nil =>
    cases standing with
    | waiting buffer sink replies =>
      have hidle : (Standing.waiting buffer sink replies).resume banner [] =
          ([], .waiting buffer.clear sink replies) := converse_of_idle rfl
      simp [arrivalsOf, hidle, afterActs, Stage.steps, Stage.hasLeft]
    | finished result => cases result <;> simp [Standing.resume, afterActs]
  | cons happening happenings ih =>
    cases standing with
    | finished result => cases result <;> simp [Standing.resume, afterActs]
    | waiting buffer sink replies =>
      cases happening with
      | arrived arrivals =>
        have hboth : arrivalsOf (.arrived arrivals :: happenings) =
            arrivals ++ arrivalsOf happenings := rfl
        have hwaits : afterActs assignment acts (.waiting buffer sink replies) =
            (deedsOf acts, .serving (.waiting buffer sink replies)) := rfl
        obtain ⟨hdeeds, hleft⟩ := ih
          ((Standing.waiting buffer sink replies).resume banner arrivals).1
          ((Standing.waiting buffer sink replies).resume banner arrivals).2
        simp only [hboth, hwaits, Standing.resume_append, Stage.steps, Stage.step]
        rw [hdeeds, hleft]
        simp [afterActs_eq]
      | setupFailed | setupDone | channelPassed | sessionEnded | waitedTooLong =>
        exact ih acts (.waiting buffer sink replies)

/-- What a worker does once the version exchange is over, by the fate of its connection. -/
theorem steps_awaiting (assignment : Assignment) (happenings : List Happening) :
    (Stage.steps assignment .awaitingChannel happenings).1 =
        (Fate.afterSetup happenings).deeds assignment ∧
      (Stage.steps assignment .awaitingChannel happenings).2.hasLeft =
        (Fate.afterSetup happenings).isSettled := by
  induction happenings with
  | nil => exact ⟨rfl, rfl⟩
  | cons happening happenings ih =>
    cases happening with
    | channelPassed sink =>
      obtain ⟨hdeeds, hleft⟩ := steps_afterActs assignment (greet banner sink).1
        (greet banner sink).2 happenings
      simp only [Stage.steps, Stage.step]
      rw [hdeeds, hleft]
      exact afterActs_eq assignment _ _
    | sessionEnded | waitedTooLong =>
      simp [Stage.steps, Stage.step, Fate.afterSetup, Fate.deeds, Fate.untilFarewell,
        Fate.service, Fate.isSettled, Fate.closes, Fate.error?, Assignment.leave, Stage.hasLeft]
    | setupFailed | setupDone | arrived => exact ih

/-- What a worker does, by the fate of its connection. -/
theorem deeds_steps (assignment : Assignment) (happenings : List Happening) :
    (Stage.steps assignment .connecting happenings).1 = (Fate.of happenings).deeds assignment ∧
      (Stage.steps assignment .connecting happenings).2.hasLeft =
        (Fate.of happenings).isSettled := by
  induction happenings with
  | nil => exact ⟨rfl, rfl⟩
  | cons happening happenings ih =>
    cases happening with
    | setupFailed message =>
      simp [Stage.steps, Stage.step, Fate.of, Fate.deeds, Fate.untilFarewell, Fate.service,
        Fate.isSettled, Fate.closes, Fate.error?, Stage.hasLeft]
    | setupDone => exact steps_awaiting assignment happenings
    | channelPassed | sessionEnded | waitedTooLong | arrived => exact ih

/-! ## The lines of a worker -/

/-- All that a worker does over the things that happen to it from the beginning. -/
def work (assignment : Assignment) (happenings : List Happening) : List Deed :=
  (Stage.steps assignment .connecting happenings).1

/-- Whether a worker has left after the things that have happened to it. -/
def hasQuit (assignment : Assignment) (happenings : List Happening) : Bool :=
  (Stage.steps assignment .connecting happenings).2.hasLeft

/-- What a worker does over the happenings of a connection is told by the fate of the connection. -/
theorem work_eq (assignment : Assignment) (happenings : List Happening) :
    work assignment happenings = (Fate.of happenings).deeds assignment :=
  (deeds_steps assignment happenings).1

/-- A worker has left exactly if the fate of its connection is settled. -/
theorem hasQuit_eq (assignment : Assignment) (happenings : List Happening) :
    hasQuit assignment happenings = (Fate.of happenings).isSettled :=
  (deeds_steps assignment happenings).2

/-- The events of deeds in sequence come in the same sequence. -/
@[simp] theorem eventsOf_append (first second : List Deed) :
    eventsOf (first ++ second) = eventsOf first ++ eventsOf second := by
  simp [eventsOf]

/-- A line is reported exactly if a deed logs it. -/
theorem mem_eventsOf {deeds : List Deed} {line : Event} :
    line ∈ eventsOf deeds ↔ .logged line ∈ deeds := by
  simp only [eventsOf, List.mem_filterMap]
  constructor
  · rintro ⟨deed, hdeed, hline⟩
    cases deed <;> simp_all
  · intro hline
    exact ⟨.logged line, hline, rfl⟩

/-- A line that begins with a text opens with it. -/
theorem opensWith_of_message {line : Event} {text rest : String}
    (h : line.message = text ++ rest) : line.opensWith text = true := by
  rw [Event.opensWith, h, String.toList_append, List.isPrefixOf_iff_prefix]
  exact List.prefix_append _ _

/-- The report of a chunk is no error. -/
theorem opensWith_received (bytes : Bytes) : (received bytes).opensWith "Error: " = false := by
  rw [Event.opensWith, received, String.toList_append]
  rfl

/-- The report of an error is none of a chunk. -/
theorem opensWith_complaint {assignment : Assignment} {message : String} {line : Event}
    (h : assignment.complaint message = .logged line) : line.opensWith "Received: " = false := by
  obtain rfl := Deed.logged.inj h
  rw [Event.opensWith, String.toList_append]
  rfl

/-- What a worker does on the channel that it serves: no deed is a disconnect, and every line
reports a chunk or the end of the input. -/
theorem mem_deedsOf {acts : List Act} {deed : Deed} (h : deed ∈ deedsOf acts) :
    (∃ act, deed = .onChannel act) ∨ ∃ line, deed = .logged line ∧
      ((∃ bytes, line = received bytes) ∨ line.message = "Connection closed by peer") := by
  obtain ⟨act, -, hdeed⟩ := List.mem_flatMap.mp h
  rcases List.mem_cons.mp hdeed with rfl | hline
  · exact .inl ⟨act, rfl⟩
  · obtain ⟨line, hline, rfl⟩ := List.mem_map.mp hline
    refine .inr ⟨line, rfl, ?_⟩
    cases act with
    | chunk bytes => exact .inl ⟨bytes, by simpa [Act.events] using hline⟩
    | ended replies => exact .inr (by simp_all [Act.events])
    | _ => simp [Act.events] at hline

/-- What a worker does before it leaves, for every fate. -/
theorem mem_service {assignment : Assignment} {fate : Fate} {deed : Deed}
    (h : deed ∈ fate.service assignment) :
    (fate = .timedOut ∧ deed = assignment.impatience) ∨
      ∃ sink arrivals, fate = .serving sink arrivals ∧
        deed ∈ deedsOf (conversation sink arrivals).1 := by
  cases fate with
  | timedOut => exact .inl ⟨rfl, by simpa [Fate.service] using h⟩
  | serving sink arrivals => exact .inr ⟨sink, arrivals, rfl, h⟩
  | _ => simp [Fate.service] at h

/-- Before it leaves a worker neither disconnects, nor complains, nor says that it is done. -/
theorem quiet_service {assignment : Assignment} {fate : Fate} {deed : Deed}
    (h : deed ∈ fate.service assignment) :
    deed.farewell? = none ∧ ∀ line, deed = .logged line →
      line.opensWith "Error: " = false ∧ line.message ≠ "SSH transport closed" := by
  rcases mem_service h with ⟨-, rfl⟩ | ⟨sink, arrivals, -, hmem⟩
  · refine ⟨rfl, ?_⟩
    intro line hline
    obtain rfl := Deed.logged.inj hline
    exact ⟨by simp [Event.opensWith, List.isPrefixOf], by simp⟩
  · rcases mem_deedsOf hmem with ⟨act, rfl⟩ | ⟨line, rfl, hline⟩
    · exact ⟨rfl, fun line hline => by cases hline⟩
    · refine ⟨rfl, ?_⟩
      intro other hother
      obtain rfl := Deed.logged.inj hother
      rcases hline with ⟨bytes, rfl⟩ | hmessage
      · refine ⟨opensWith_received bytes, ?_⟩
        intro hclosed
        simpa [received] using congrArg String.toList hclosed
      · rw [Event.opensWith, hmessage]
        exact ⟨rfl, by decide⟩

/-- Up to its farewell a worker neither disconnects nor says that it is done. -/
theorem quiet_before_farewell {assignment : Assignment} {fate : Fate} {deed : Deed}
    (h : deed ∈ fate.untilFarewell assignment) :
    deed.farewell? = none ∧
      ∀ line, deed = .logged line → line.message ≠ "SSH transport closed" := by
  rcases List.mem_append.mp h with hservice | hcomplaint
  · obtain ⟨hquiet, hlines⟩ := quiet_service hservice
    exact ⟨hquiet, fun line hline => (hlines line hline).2⟩
  · obtain ⟨message, -, rfl⟩ := Option.map_eq_some_iff.mp (Option.mem_toList.mp hcomplaint)
    refine ⟨rfl, ?_⟩
    intro line hline hclosed
    rw [← Deed.logged.inj hline] at hclosed
    simpa using congrArg String.toList hclosed

/-- Up to its farewell a worker asks for no disconnect, and does not report that the transport was
closed. -/
theorem untilFarewell_quiet (assignment : Assignment) (fate : Fate) :
    (∀ deed ∈ fate.untilFarewell assignment, deed.farewell? = none) ∧
      ∀ line ∈ eventsOf (fate.untilFarewell assignment),
        line.message ≠ "SSH transport closed" := by
  refine ⟨?_, ?_⟩
  · intro deed hdeed
    exact (quiet_before_farewell hdeed).1
  · intro line hline
    exact (quiet_before_farewell (mem_eventsOf.mp hline)).2 line rfl

/-- A worker complains once over the error that its connection comes to, and else never. -/
theorem complaints_eq (assignment : Assignment) (fate : Fate) :
    (eventsOf (fate.deeds assignment)).filter (·.opensWith "Error: ") =
      eventsOf (fate.error?.map assignment.complaint).toList := by
  have hservice : (eventsOf (fate.service assignment)).filter (·.opensWith "Error: ") = [] := by
    apply List.filter_eq_nil_iff.mpr
    intro line hline
    simp [(quiet_service (mem_eventsOf.mp hline)).2 line rfl]
  have hfarewell : (eventsOf assignment.farewell).filter (·.opensWith "Error: ") = [] := by
    simp [eventsOf, Assignment.farewell, Event.opensWith, List.isPrefixOf]
  have hcomplaint : (eventsOf (fate.error?.map assignment.complaint).toList).filter
      (·.opensWith "Error: ") = eventsOf (fate.error?.map assignment.complaint).toList := by
    cases fate.error? with
    | none => rfl
    | some message =>
      have hopens : Event.opensWith ⟨.warn, .secure, "Error: " ++ message,
          [.plain "peer" assignment.peer]⟩ "Error: " = true := opensWith_of_message rfl
      simp [eventsOf, Assignment.complaint, hopens]
  rw [Fate.deeds, Fate.untilFarewell, eventsOf_append, eventsOf_append, List.filter_append,
    List.filter_append, hservice, hcomplaint]
  split
  · rw [hfarewell, List.nil_append, List.append_nil]
  · simp [eventsOf]

/-- The lines with which a worker leaves: a complaint over its error, and that it is done. -/
theorem mem_leave {assignment : Assignment} {error : Option String} {line : Event}
    (h : .logged line ∈ (assignment.leave error).1) :
    (∃ message, assignment.complaint message = .logged line) ∨
      line.message = "SSH transport closed" := by
  rcases List.mem_append.mp h with hcomplaint | hfarewell
  · obtain ⟨message, -, hmessage⟩ := Option.map_eq_some_iff.mp (Option.mem_toList.mp hcomplaint)
    exact .inl ⟨message, hmessage⟩
  · simp only [Assignment.farewell, List.mem_cons, List.not_mem_nil, or_false] at hfarewell
    rcases hfarewell with hdisconnected | hclosed
    · cases hdisconnected
    · rw [Deed.logged.inj hclosed]
      exact .inr rfl

/-- What a worker does last is part of how it leaves. -/
theorem mem_leave_of_mem {assignment : Assignment} {error : Option String} {closes : Bool}
    {deed : Deed} (h : deed ∈ (error.map assignment.complaint).toList ++
      if closes then assignment.farewell else []) :
    deed ∈ (assignment.leave error).1 := by
  rcases List.mem_append.mp h with hcomplaint | hfarewell
  · exact List.mem_append_left _ hcomplaint
  · cases closes with
    | true => exact List.mem_append_right _ hfarewell
    | false => cases hfarewell

/-- The lines of a worker, for every fate. -/
theorem mem_lines {assignment : Assignment} {fate : Fate} {line : Event}
    (h : line ∈ eventsOf (fate.deeds assignment)) :
    .logged line ∈ fate.service assignment ∨
      .logged line ∈ (assignment.leave fate.error?).1 := by
  rw [mem_eventsOf, Fate.deeds, Fate.untilFarewell, List.append_assoc] at h
  exact (List.mem_append.mp h).imp_right mem_leave_of_mem

/-- A worker that leaves has not lost its patience by that. -/
theorem message_leave {assignment : Assignment} {error : Option String} {line : Event}
    (h : .logged line ∈ (assignment.leave error).1) :
    line.message ≠ "No channel opened in time" := by
  intro hmessage
  rcases mem_leave h with ⟨message, hcomplaint⟩ | hclosed
  · rw [← Deed.logged.inj hcomplaint] at hmessage
    simpa using congrArg String.toList hmessage
  · simp [hclosed] at hmessage

/-- A worker that serves a channel has not lost its patience. -/
theorem message_deedsOf {acts : List Act} {line : Event} (h : .logged line ∈ deedsOf acts) :
    line.message ≠ "No channel opened in time" := by
  intro hmessage
  rcases mem_deedsOf h with ⟨act, hact⟩ | ⟨other, hother, ⟨bytes, rfl⟩ | hclosed⟩
  · cases hact
  · rw [Deed.logged.inj hother] at hmessage
    simpa [received] using congrArg String.toList hmessage
  · rw [Deed.logged.inj hother, hclosed] at hmessage
    simp at hmessage

/-- A worker complains exactly when its connection comes to an error. -/
theorem complains_iff (assignment : Assignment) (fate : Fate) :
    (∃ line ∈ eventsOf (fate.deeds assignment), line.opensWith "Error: " = true) ↔
      fate.error?.isSome = true := by
  have hmem (line : Event) :
      (line ∈ eventsOf (fate.deeds assignment) ∧ line.opensWith "Error: " = true) ↔
        line ∈ eventsOf (fate.error?.map assignment.complaint).toList := by
    rw [← complaints_eq, List.mem_filter]
  simp only [hmem]
  cases fate.error? <;> simp [eventsOf, Assignment.complaint]

/-- The line of a lost patience stands for that fate alone. -/
theorem timedOut_of_mem {assignment : Assignment} {fate : Fate} {line : Event}
    (h : line ∈ eventsOf (fate.deeds assignment))
    (hmessage : line.message = "No channel opened in time") : fate = .timedOut := by
  rcases mem_lines h with hservice | hleave
  · rcases mem_service hservice with ⟨hfate, -⟩ | ⟨sink, arrivals, -, hmem⟩
    · exact hfate
    · exact absurd hmessage (message_deedsOf hmem)
  · exact absurd hmessage (message_leave hleave)

/-- A chunk is reported on a served channel alone. -/
theorem serving_of_mem {assignment : Assignment} {fate : Fate} {line : Event}
    (h : line ∈ eventsOf (fate.deeds assignment)) (hopens : line.opensWith "Received: " = true) :
    ∃ sink arrivals, fate = .serving sink arrivals := by
  rcases mem_lines h with hservice | hleave
  · rcases mem_service hservice with ⟨-, htired⟩ | ⟨sink, arrivals, hfate, -⟩
    · rw [Deed.logged.inj htired] at hopens
      simp [Event.opensWith, List.isPrefixOf] at hopens
    · exact ⟨sink, arrivals, hfate⟩
  · rcases mem_leave hleave with ⟨message, hcomplaint⟩ | hclosed
    · rw [opensWith_complaint hcomplaint] at hopens
      contradiction
    · simp [Event.opensWith, hclosed, List.isPrefixOf] at hopens

/-- Beside the line of a lost patience there is none of a chunk or an error: they belong to different
fates, and a connection has one. -/
theorem apart_from_timedOut {assignment : Assignment} {fate : Fate} {line other : Event}
    (h : line ∈ eventsOf (fate.deeds assignment))
    (hmessage : line.message = "No channel opened in time")
    (hother : other ∈ eventsOf (fate.deeds assignment)) :
    other.opensWith "Received: " = false ∧ other.opensWith "Error: " = false := by
  rw [timedOut_of_mem h hmessage] at hother
  constructor
  · apply Bool.eq_false_iff.mpr
    intro hopens
    obtain ⟨sink, arrivals, hserving⟩ := serving_of_mem hother hopens
    cases hserving
  · apply Bool.eq_false_iff.mpr
    intro hopens
    have herror := (complains_iff assignment .timedOut).mp ⟨other, hother, hopens⟩
    cases herror

/-! ## Leaving -/

/-- An exchange is over once its input has ended. -/
theorem isOver_conversation (sink : Sink) (arrivals : List Arrival) :
    isOver (conversation sink (arrivals ++ [.data []])).2 = true := by
  simp only [conversation, Standing.resume_append]
  cases (Standing.resume banner arrivals (greet banner sink).2).2 with
  | finished result => rfl
  | waiting buffer sink replies =>
    rw [Standing.resume_end]
    rfl

/-- What arrives over two series of happenings arrives over one after the other. -/
theorem arrivalsOf_append (first second : List Happening) :
    arrivalsOf (first ++ second) = arrivalsOf first ++ arrivalsOf second :=
  List.flatMap_append

namespace Fate

/-- After the version exchange, a channel that is served stays so, whatever happens then. -/
theorem afterSetup_append {before : List Happening} {sink : Sink} {arrivals : List Arrival}
    (h : afterSetup before = .serving sink arrivals) (after : List Happening) :
    afterSetup (before ++ after) = .serving sink (arrivals ++ arrivalsOf after) := by
  induction before with
  | nil => cases h
  | cons happening before ih =>
    cases happening with
    | channelPassed =>
      obtain ⟨rfl, rfl⟩ := Fate.serving.inj h
      simp [afterSetup, arrivalsOf_append]
    | sessionEnded | waitedTooLong => cases h
    | setupFailed | setupDone | arrived => exact ih h

/-- A channel that is served stays so, whatever happens then. Only what arrives counts. -/
theorem of_append {before : List Happening} {sink : Sink} {arrivals : List Arrival}
    (h : of before = .serving sink arrivals) (after : List Happening) :
    of (before ++ after) = .serving sink (arrivals ++ arrivalsOf after) := by
  induction before with
  | nil => cases h
  | cons happening before ih =>
    cases happening with
    | setupFailed => cases h
    | setupDone => exact afterSetup_append h after
    | channelPassed | sessionEnded | waitedTooLong | arrived => exact ih h

/-- What happens to a worker when its transport ends: the end of the session, and of the input. -/
def transportEnd (error : Option String) : List Happening :=
  [.sessionEnded error, .arrived [.data []]]

/-- After the version exchange, the end of the transport settles every fate. -/
theorem isSettled_afterSetup (happenings : List Happening) (error : Option String) :
    (afterSetup (happenings ++ transportEnd error)).isSettled = true := by
  induction happenings with
  | nil => rfl
  | cons happening happenings ih =>
    cases happening with
    | channelPassed sink =>
      simp only [List.cons_append, afterSetup, arrivalsOf_append]
      exact isOver_conversation sink (arrivalsOf happenings)
    | sessionEnded | waitedTooLong => rfl
    | setupFailed | setupDone | arrived => exact ih

/-- Once the version exchange has failed or succeeded, the end of the transport settles every
fate. -/
theorem isSettled_of_transportEnd {happenings : List Happening}
    (h : of happenings ≠ .connecting) (error : Option String) :
    (of (happenings ++ transportEnd error)).isSettled = true := by
  induction happenings with
  | nil => exact absurd rfl h
  | cons happening happenings ih =>
    cases happening with
    | setupFailed => rfl
    | setupDone => exact isSettled_afterSetup happenings error
    | channelPassed | sessionEnded | waitedTooLong | arrived => exact ih h

/-- Whether the connection comes to an error, in the words of its fate. -/
theorem error?_isSome (fate : Fate) :
    fate.error?.isSome = true ↔
      (∃ message, fate = .setupFailed message) ∨
      (∃ message, fate = .sessionOver (some message)) ∨
      ∃ sink arrivals fault, fate = .serving sink arrivals ∧
        (conversation sink arrivals).2 = .finished (.error fault) := by
  cases fate with
  | setupFailed message => simp [error?]
  | sessionOver error => cases error <;> simp [error?]
  | serving sink arrivals =>
    have hiff : (errorOf (conversation sink arrivals).2).isSome = true ↔
        ∃ fault, (conversation sink arrivals).2 = .finished (.error fault) := by
      cases (conversation sink arrivals).2 with
      | waiting => simp [errorOf]
      | finished result => cases result <;> simp [errorOf]
    rw [error?, hiff]
    constructor
    · rintro ⟨fault, hfault⟩
      exact .inr (.inr ⟨sink, arrivals, fault, rfl, hfault⟩)
    · rintro (⟨message, hfate⟩ | ⟨message, hfate⟩ | ⟨_, _, fault, hfate, hfault⟩)
      · cases hfate
      · cases hfate
      · cases hfate
        exact ⟨fault, hfault⟩
  | _ => simp [error?]

/-- A fate that is settled closes the transport, unless there was none yet. -/
theorem closes_of_isSettled {fate : Fate} (h : fate.isSettled = true)
    (hup : ∀ message, fate ≠ .setupFailed message) : fate.closes = true := by
  cases fate with
  | setupFailed message => exact absurd rfl (hup message)
  | _ => exact h

/-- A fate that is not settled closes nothing. -/
theorem closes_eq_false {fate : Fate} (h : fate.isSettled = false) : fate.closes = false := by
  cases fate with
  | setupFailed message => rfl
  | _ => exact h

end Fate

/-- A worker reports once and cleans up once, whatever happens to it and in which order. It
complains over one error at most, and exactly when the version exchange failed, the session ended
with an error before a channel was passed on, or the exchange on the channel failed. It leaves when
its fate is settled. When the version exchange failed the complaint is all that it does. Otherwise,
when it leaves, it disconnects once and then says so, last of all; until then it has done neither,
and at the latest it leaves when the transport ends. It never says that no channel came and reports
a chunk or complains as well. On a served channel the end of the session adds nothing to what it
does. -/
theorem worker_reports_once (assignment : Assignment) (happenings : List Happening) :
    let lines := eventsOf (work assignment happenings)
    let fate := Fate.of happenings
    lines.countP (·.opensWith "Error: ") ≤ 1 ∧
    ((∃ line ∈ lines, line.opensWith "Error: " = true) ↔
      (∃ message, fate = .setupFailed message) ∨
      (∃ message, fate = .sessionOver (some message)) ∨
      ∃ sink arrivals fault, fate = .serving sink arrivals ∧
        (conversation sink arrivals).2 = .finished (.error fault)) ∧
    hasQuit assignment happenings = fate.isSettled ∧
    (∀ message, fate = .setupFailed message →
      work assignment happenings = [assignment.complaint message]) ∧
    ((∀ message, fate ≠ .setupFailed message) → hasQuit assignment happenings = true →
      ∃ earlier, work assignment happenings = earlier ++
          [.disconnected ⟨"ByApplication", ""⟩,
            .logged ⟨.debug, .secure, "SSH transport closed",
              [.plain "peer" assignment.peer]⟩] ∧
        (∀ deed ∈ earlier, deed.farewell? = none) ∧
        ∀ line ∈ eventsOf earlier, line.message ≠ "SSH transport closed") ∧
    (hasQuit assignment happenings = false →
      (∀ deed ∈ work assignment happenings, deed.farewell? = none) ∧
      (∀ line ∈ lines, line.message ≠ "SSH transport closed") ∧
      (fate ≠ .connecting → ∀ error,
        hasQuit assignment (happenings ++ [.sessionEnded error, .arrived [.data []]]) = true)) ∧
    (∀ line ∈ lines, line.message = "No channel opened in time" →
      ∀ other ∈ lines, other.opensWith "Received: " = false ∧
        other.opensWith "Error: " = false) ∧
    ∀ before after error sink arrivals,
      happenings = before ++ .sessionEnded error :: after →
      Fate.of before = .serving sink arrivals →
      work assignment happenings = work assignment (before ++ after) := by
  simp only [work_eq]
  refine ⟨?_, ?_, hasQuit_eq assignment happenings, ?_, ?_, ?_, ?_, ?_⟩
  · rw [List.countP_eq_length_filter, complaints_eq]
    cases (Fate.of happenings).error? <;> simp [eventsOf, Assignment.complaint]
  · rw [complains_iff, Fate.error?_isSome]
  · intro message hfate
    rw [hfate]
    rfl
  · intro hup hquit
    rw [hasQuit_eq] at hquit
    refine ⟨_, ?_, untilFarewell_quiet assignment (Fate.of happenings)⟩
    rw [Fate.deeds, Fate.closes_of_isSettled hquit hup]
    rfl
  · intro hquit
    rw [hasQuit_eq] at hquit
    have hdeeds : (Fate.of happenings).deeds assignment =
        (Fate.of happenings).untilFarewell assignment := by
      simp [Fate.deeds, Fate.closes_eq_false hquit]
    rw [hdeeds]
    obtain ⟨hquiet, hlines⟩ := untilFarewell_quiet assignment (Fate.of happenings)
    refine ⟨hquiet, hlines, ?_⟩
    intro hbegun error
    rw [hasQuit_eq]
    exact Fate.isSettled_of_transportEnd hbegun error
  · intro line hline hmessage other hother
    exact apart_from_timedOut hline hmessage hother
  · intro before after error sink arrivals hsplit hserving
    rw [hsplit, Fate.of_append hserving, Fate.of_append hserving]
    rfl

/-- A channel and an error of the session come too late for a worker that has lost its patience. -/
example : (eventsOf (work ⟨"127.0.0.1:4022", 3⟩
    [.setupDone, .waitedTooLong, .channelPassed .willing, .sessionEnded (some "early eof")])).map
      Event.message = ["No channel opened in time", "SSH transport closed"] := by
  decide +kernel

end Ssh

end PongFixture
