import PongFixture.Proofs.Exchange.Pieces
import PongFixture.Proofs.Ssh.ChannelDeadline

/-!
# What deeds of the worker say on its channel

Most of what befalls a worker makes it say nothing to the client and report no chunk (`Silent`). The
passing of time does not (`silent_elapse`), and the end of the transport does not either, however it
comes (`silent_sever`). What does is the channel that is handed over, which is greeted
(`Link.happen_passed`), and octets that arrive on it, which are answered piece by piece
(`Link.happen_data`).
-/

set_option autoImplicit false

namespace PongFixture.Ssh

open Exchange (Act Standing Round pieceCount roundsOf sendingOf sent)

/-- The lines that report chunks. -/
def chunkLines (events : List Event) : List Event :=
  events.filter fun event => event.opensWith "Received: "

/-! ## What says nothing on the channel -/

/-- Deeds that send nothing and report no chunk. -/
structure Silent (deeds : List Deed) : Prop where
  sent_eq : sentBy deeds = []
  lines_eq : chunkLines (eventsOf deeds) = []

/-- The lines that report chunks come in the sequence of the events. -/
@[simp] theorem chunkLines_append (first second : List Event) :
    chunkLines (first ++ second) = chunkLines first ++ chunkLines second :=
  List.filter_append ..

/-- What deeds in sequence send is sent in the same sequence. -/
@[simp] theorem sentBy_append (first second : List Deed) :
    sentBy (first ++ second) = sentBy first ++ sentBy second := by
  simp [sentBy]

/-- The report of a chunk is a line that reports one. -/
theorem chunkLines_received (chunks : List Bytes) :
    chunkLines (chunks.map received) = chunks.map received := by
  apply List.filter_eq_self.mpr
  intro event hevent
  obtain ⟨bytes, -, rfl⟩ := List.mem_map.mp hevent
  exact opensWith_of_message rfl

/-- What the handler reports is no chunk. -/
theorem chunkLines_reports {events : List Event}
    (h : ∀ line ∈ events, line.message ∈ handlerReports) : chunkLines events = [] := by
  apply List.filter_eq_nil_iff.mpr
  intro line hline
  have hreport := h line hline
  simp only [handlerReports, List.mem_cons, List.not_mem_nil, or_false] at hreport
  rcases hreport with hreport | hreport | hreport | hreport <;>
    simp [Event.opensWith, hreport, List.isPrefixOf]

/-- Deeds that are silent one after the other are silent. -/
theorem Silent.append {first second : List Deed} (h : Silent first) (hthen : Silent second) :
    Silent (first ++ second) where
  sent_eq := by rw [sentBy_append, h.sent_eq, hthen.sent_eq]; rfl
  lines_eq := by rw [eventsOf_append, chunkLines_append, h.lines_eq, hthen.lines_eq]; rfl

/-- No deeds are silent. -/
theorem silent_nil : Silent [] := ⟨rfl, rfl⟩

/-- A complaint sends nothing and reports no chunk. -/
theorem silent_complaint (assignment : Assignment) (message : String) :
    Silent [assignment.complaint message] where
  sent_eq := rfl
  lines_eq := by
    apply List.filter_eq_nil_iff.mpr
    intro line hline
    obtain rfl := List.mem_singleton.mp hline
    simp [opensWith_complaint rfl]

/-- A worker that leaves sends nothing and reports no chunk. -/
theorem silent_leave (assignment : Assignment) (error : Option String) :
    Silent (assignment.leave error).1 := by
  have hfarewell : Silent assignment.farewell := by
    refine ⟨rfl, ?_⟩
    simp [Assignment.farewell, eventsOf, chunkLines, Event.opensWith, List.isPrefixOf]
  cases error with
  | none => exact hfarewell
  | some message => exact (silent_complaint assignment message).append hfarewell

/-- The deeds of a worker whose input ends. -/
theorem silent_ended (room : Nat) (replies : Nat) :
    Silent (deedsOf [.read room [], .ended replies]) where
  sent_eq := rfl
  lines_eq := by
    simp [deedsOf, Exchange.Act.events, eventsOf, chunkLines, Event.opensWith, List.isPrefixOf]

/-- However the transport ends, the worker says nothing on the channel by that. -/
theorem silent_sever (link : Link) (error : Option String) : Silent (link.sever error).1 := by
  unfold Link.sever Stage.steps
  cases link.stage with
  | connecting => exact silent_nil
  | left => exact silent_nil.append silent_nil
  | awaitingChannel => exact (silent_leave _ error).append silent_nil
  | serving standing =>
    cases standing with
    | finished result =>
      cases result with
      | ok replies => exact silent_leave _ none
      | error fault => exact silent_leave _ (some fault.message)
    | waiting buffer sink replies =>
      simp only [Stage.steps, Stage.step, Standing.resume_end, List.nil_append, List.append_nil]
      exact (silent_ended _ _).append (silent_leave _ none)

/-- Time makes no worker say anything on the channel. -/
theorem silent_elapse (link : Link) (ms : Nat) : Silent (link.elapse ms).1 := by
  rcases link.elapse_cases ms with ⟨hquiet, -⟩ | ⟨-, -, -, hweary⟩ | ⟨-, -, -, hsilent⟩
  · rw [hquiet]
    exact silent_nil
  · rw [hweary]
    have himpatience : Silent [link.assignment.impatience] := by
      refine ⟨rfl, ?_⟩
      simp [Assignment.impatience, eventsOf, chunkLines, Event.opensWith, List.isPrefixOf]
    exact himpatience.append (silent_leave link.assignment none)
  · rw [hsilent]
    unfold Link.giveUp
    split
    · rename_i hstage
      unfold Link.happen
      rw [hstage]
      exact silent_complaint link.assignment _
    · exact silent_sever _ _

/-! ## What is said on the channel -/

/-- The deeds of acts are the first act on the channel, its events, and the deeds of the others. -/
theorem deedsOf_cons (act : Act) (acts : List Act) :
    deedsOf (act :: acts) =
      .onChannel act :: (act.events received).map .logged ++ deedsOf acts := rfl

/-- Reports send nothing. -/
theorem sentBy_map_logged (events : List Event) : sentBy (events.map .logged) = [] := by
  apply List.flatMap_eq_nil_iff.mpr
  intro deed hdeed
  obtain ⟨event, -, rfl⟩ := List.mem_map.mp hdeed
  rfl

/-- The deeds of an exchange send what its acts send. -/
theorem sentBy_deedsOf (acts : List Act) : sentBy (deedsOf acts) = sent acts := by
  induction acts with
  | nil => rfl
  | cons act acts ih =>
    have hact : sentBy (.onChannel act :: (act.events received).map .logged) = act.sent := by
      rw [← List.singleton_append, sentBy_append, sentBy_map_logged, List.append_nil]
      exact List.flatMap_singleton ..
    rw [deedsOf_cons, sentBy_append, hact, ih]
    rfl

/-- The deeds of an exchange report what its acts report. -/
theorem eventsOf_deedsOf (acts : List Act) :
    eventsOf (deedsOf acts) = Exchange.eventsOf received acts := by
  induction acts with
  | nil => rfl
  | cons act acts ih =>
    have hact : eventsOf (.onChannel act :: (act.events received).map .logged) =
        act.events received := eventsOf_map_logged (act.events received)
    rw [deedsOf_cons, eventsOf_append, hact, ih]
    rfl

namespace Link

/-- A link whose worker waits on the channel after so many replies. -/
def afterReplies (link : Link) (replies : Nat) : Link :=
  { link with stage := .serving (.waiting .new .willing replies) }

/-- As long as a worker waits on it says no farewell. -/
theorem happen_waiting {link : Link} {happening : Happening} {acts : List Act} {replies : Nat}
    (h : link.stage.step link.assignment happening =
      afterActs link.assignment acts (.waiting .new .willing replies)) :
    link.happen happening = (deedsOf acts, link.afterReplies replies) := by
  have hnone : (deedsOf acts).findSome? Deed.farewell? = none := by
    rw [List.findSome?_eq_none_iff]
    intro deed hdeed
    rcases mem_deedsOf hdeed with ⟨act, rfl⟩ | ⟨line, rfl, -⟩ <;> rfl
  unfold happen afterReplies
  rw [h]
  simp only [afterActs, hnone, Option.or_none]

/-- A worker that is passed a channel sends the greeting and waits. -/
theorem happen_passed {link : Link} (h : link.stage = .awaitingChannel) :
    link.happen (.channelPassed .willing) =
      (deedsOf (sendingOf banner.greeting), link.afterReplies 0) := by
  apply happen_waiting
  rw [h, Stage.step, Exchange.greet_willing]

/-- A worker that serves a channel answers every piece of what arrives, and waits again. -/
theorem happen_data {link : Link} {replies : Nat}
    (h : link.stage = .serving (.waiting .new .willing replies)) (bytes : Bytes) :
    link.happen (.arrived (if bytes = [] then [] else [.data bytes])) =
      (deedsOf ((roundsOf banner bytes).flatMap Round.acts),
        link.afterReplies (replies + pieceCount bytes.length)) := by
  apply happen_waiting
  rw [h, Stage.step, Exchange.resume_data]

/-- When its input ends the worker ends the transport. -/
theorem happen_end {link : Link} {replies : Nat}
    (h : link.stage = .serving (.waiting .new .willing replies)) (hnone : link.farewell = none) :
    link.happen (.arrived [.data []]) =
      (deedsOf [.read Exchange.chunkSize [], .ended replies] ++ link.assignment.farewell,
        { link with stage := .left, farewell := some Ssh.farewell }) := by
  unfold happen
  rw [h, Stage.step, Standing.resume_end]
  simp only [hnone]
  rfl

end Link

end PongFixture.Ssh
