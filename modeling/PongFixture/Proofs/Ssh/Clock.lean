import PongFixture.Proofs.Ssh.Reports
import PongFixture.Ssh.Link

/-!
# How time acts on a connection

Time does one of three things to a link: nothing, it ends the worker's patience, or it ends the
transport for silence (`elapse_cases`). It does not matter in which portions it passes
(`elapse_add`). So a worker that waits for a channel loses patience at its deadline and not before,
as long as the transport is up until then (`Awaits.deadline`).
-/

set_option autoImplicit false

namespace PongFixture.Ssh

/-! ## Where a worker may come to stand -/

/-- What an exchange that has come to stand somewhere makes of its worker: it serves on or has
left. -/
theorem stage_afterActs (assignment : Assignment) (acts : List Exchange.Act)
    (standing : Exchange.Standing) :
    (∃ served, (afterActs assignment acts standing).2 = .serving served) ∨
      (afterActs assignment acts standing).2 = .left := by
  cases standing with
  | waiting buffer sink replies => exact .inl ⟨_, rfl⟩
  | finished result => cases result <;> exact .inr rfl

/-- The lines of an exchange, and of how its worker leaves, do not tell of a lost patience. -/
theorem message_afterActs {assignment : Assignment} {acts : List Exchange.Act}
    {standing : Exchange.Standing} {line : Event}
    (h : line ∈ eventsOf (afterActs assignment acts standing).1) :
    line.message ≠ "No channel opened in time" := by
  rw [mem_eventsOf, (afterActs_eq assignment acts standing).1, List.append_assoc] at h
  rcases List.mem_append.mp h with hacts | hleave
  · exact message_deedsOf hacts
  · exact message_leave (mem_leave_of_mem hleave)

/-- What one step of a worker comes to: nothing, the end of the version exchange, an exchange that
has come to stand somewhere, or one of the ways to leave. -/
theorem step_cases (assignment : Assignment) (stage : Stage) (happening : Happening) :
    stage.step assignment happening = ([], stage) ∨
    (happening = .setupDone ∧ stage.step assignment happening = ([], .awaitingChannel)) ∨
    (∃ acts standing, stage.step assignment happening = afterActs assignment acts standing) ∨
    (∃ message, stage.step assignment happening = ([assignment.complaint message], .left)) ∨
    (∃ error, stage.step assignment happening = assignment.leave error) ∨
    (stage = .awaitingChannel ∧ happening = .waitedTooLong ∧
      stage.step assignment happening =
        (assignment.impatience :: (assignment.leave none).1, .left)) := by
  cases stage with
  | connecting =>
    cases happening with
    | setupFailed message => exact .inr (.inr (.inr (.inl ⟨message, rfl⟩)))
    | setupDone => exact .inr (.inl ⟨rfl, rfl⟩)
    | _ => exact .inl rfl
  | awaitingChannel =>
    cases happening with
    | channelPassed sink => exact .inr (.inr (.inl ⟨_, _, rfl⟩))
    | sessionEnded error => exact .inr (.inr (.inr (.inr (.inl ⟨error, rfl⟩))))
    | waitedTooLong => exact .inr (.inr (.inr (.inr (.inr ⟨rfl, rfl, rfl⟩))))
    | _ => exact .inl rfl
  | serving standing =>
    cases happening with
    | arrived arrivals => exact .inr (.inr (.inl ⟨_, _, rfl⟩))
    | _ => exact .inl rfl
  | left => exact .inl (Stage.step_left assignment happening)

section Steps

variable {assignment : Assignment} {stage : Stage} {happening : Happening}

/-- A worker tells of a lost patience at one step alone. -/
theorem tired_of_mem_step {line : Event} (h : line ∈ eventsOf (stage.step assignment happening).1)
    (hmessage : line.message = "No channel opened in time") :
    stage = .awaitingChannel ∧ happening = .waitedTooLong := by
  rcases step_cases assignment stage happening with hstep | ⟨-, hstep⟩ | ⟨acts, standing, hstep⟩ |
    ⟨message, hstep⟩ | ⟨error, hstep⟩ | ⟨hstage, hhappening, -⟩
  · rw [hstep] at h
    cases h
  · rw [hstep] at h
    cases h
  · rw [hstep] at h
    exact absurd hmessage (message_afterActs h)
  · rw [hstep] at h
    obtain rfl := List.mem_singleton.mp h
    simpa using congrArg String.toList hmessage
  · rw [hstep] at h
    exact absurd hmessage (message_leave (mem_eventsOf.mp h))
  · exact ⟨hstage, hhappening⟩

/-- Where a worker stands after one step: where it stood, serving, gone, or at the end of the
version exchange. -/
theorem stage_step (assignment : Assignment) (stage : Stage) (happening : Happening) :
    (stage.step assignment happening).2 = stage ∨
    (happening = .setupDone ∧ (stage.step assignment happening).2 = .awaitingChannel) ∨
    (∃ served, (stage.step assignment happening).2 = .serving served) ∨
    (stage.step assignment happening).2 = .left := by
  rcases step_cases assignment stage happening with hstep | ⟨hsetup, hstep⟩ |
    ⟨acts, standing, hstep⟩ | ⟨message, hstep⟩ | ⟨error, hstep⟩ | ⟨-, -, hstep⟩
  · exact .inl (congrArg Prod.snd hstep)
  · exact .inr (.inl ⟨hsetup, congrArg Prod.snd hstep⟩)
  · rw [hstep]
    exact .inr (.inr (stage_afterActs assignment acts standing))
  · exact .inr (.inr (.inr (congrArg Prod.snd hstep)))
  · exact .inr (.inr (.inr (congrArg Prod.snd hstep)))
  · exact .inr (.inr (.inr (congrArg Prod.snd hstep)))

/-- Nothing but the end of the version exchange makes a worker await a channel. -/
theorem awaits_of_step (h : (stage.step assignment happening).2 = .awaitingChannel) :
    stage = .awaitingChannel ∨ happening = .setupDone := by
  rcases stage_step assignment stage happening with
    hstays | ⟨hsetup, -⟩ | ⟨served, hserves⟩ | hleft
  · exact .inl (hstays.symm.trans h)
  · exact .inr hsetup
  · cases hserves.symm.trans h
  · cases hleft.symm.trans h

/-- A worker never goes back to the version exchange. -/
theorem connecting_of_step (h : (stage.step assignment happening).2 = .connecting) :
    stage = .connecting := by
  rcases stage_step assignment stage happening with
    hstays | ⟨-, hawaits⟩ | ⟨served, hserves⟩ | hleft
  · exact hstays.symm.trans h
  · cases hawaits.symm.trans h
  · cases hserves.symm.trans h
  · cases hleft.symm.trans h

/-- A worker says farewell at the step at which it leaves. -/
theorem quiet_of_stays (h : (stage.step assignment happening).2 ≠ .left) :
    (stage.step assignment happening).1.findSome? Deed.farewell? = none := by
  rcases step_cases assignment stage happening with hstep | ⟨-, hstep⟩ | ⟨acts, standing, hstep⟩ |
    ⟨message, hstep⟩ | ⟨error, hstep⟩ | ⟨-, -, hstep⟩
  · rw [hstep]
    rfl
  · rw [hstep]
    rfl
  · rw [hstep] at h ⊢
    cases standing with
    | finished result => cases result <;> exact absurd rfl h
    | waiting buffer sink replies =>
      apply List.findSome?_eq_none_iff.mpr
      intro deed hdeed
      rcases mem_deedsOf hdeed with ⟨act, rfl⟩ | ⟨line, rfl, -⟩ <;> rfl
  · exact absurd (congrArg Prod.snd hstep) h
  · exact absurd (congrArg Prod.snd hstep) h
  · exact absurd (congrArg Prod.snd hstep) h

end Steps

namespace Link

/-- The lines by which a worker leaves when no channel has come. -/
def timeoutLines (assignment : Assignment) : List Event :=
  [⟨.debug, .secure, "No channel opened in time", [.plain "wait" (describeWait assignment.wait)]⟩,
    ⟨.debug, .secure, "SSH transport closed", [.plain "peer" assignment.peer]⟩]

/-! ## One stretch of time -/

/-- A link whose transport has ended. -/
def ended (link : Link) : Link := { link with stage := .left }

/-- A link whose worker has lost its patience: it has said farewell and left. -/
def wearied (link : Link) : Link :=
  { link with stage := .left, farewell := link.farewell.or (some Ssh.farewell) }

/-- A link is up exactly if its worker has not left. -/
theorem isUp_iff {link : Link} : link.isUp = true ↔ link.stage ≠ .left := by
  unfold isUp
  cases link.stage <;> simp

/-- A worker waits for a channel exactly if it stands there. -/
theorem awaitsChannel_iff {link : Link} :
    link.awaitsChannel = true ↔ link.stage = .awaitingChannel := by
  unfold awaitsChannel
  cases link.stage <;> simp

/-- When the transport ends, a worker leaves that was past the version exchange. -/
theorem sever_eq {link : Link} (h : link.stage ≠ .connecting) (error : Option String) :
    (link.sever error).2 = link.ended := by
  have hstage : (link.stage.steps link.assignment
      [.sessionEnded error, .arrived [.data []]]).2 = .left := by
    cases hlink : link.stage with
    | connecting => exact absurd hlink h
    | awaitingChannel => rfl
    | left => rfl
    | serving standing =>
      cases standing with
      | finished result => cases result <;> rfl
      | waiting buffer sink replies =>
        simp only [Stage.steps, Stage.step, Exchange.Standing.resume_end]
        rfl
  simp only [sever, ended, hstage]

/-- During the version exchange the worker does not see the end of the transport. -/
theorem sever_of_connecting {link : Link} (h : link.stage = .connecting) (error : Option String) :
    link.sever error = ([], link) := by
  obtain ⟨assignment, stage, farewell, age, silence⟩ := link
  cases h
  rfl

/-- A worker that has waited too long says so, says farewell, and leaves. -/
theorem happen_waitedTooLong {link : Link} (h : link.stage = .awaitingChannel) :
    link.happen .waitedTooLong =
      (link.assignment.impatience :: link.assignment.farewell, link.wearied) := by
  simp only [happen, h]
  rfl

/-- When the peer is silent for too long the worker leaves. -/
theorem giveUp_eq (link : Link) : link.giveUp.2 = link.ended := by
  unfold giveUp
  split
  · rename_i hstage
    simp [happen, ended, hstage, Stage.step, Assignment.complaint, Deed.farewell?]
  · rename_i hstage
    exact sever_eq hstage _

/-- What is done about a silent peer does not depend on when it is done. -/
theorem giveUp_later (link : Link) (ms : Nat) : (link.later ms).giveUp.1 = link.giveUp.1 := by
  simp only [giveUp, later]
  split <;> rfl

/-- What time does to a link: nothing, it ends the patience of the worker, or it ends the transport
for silence. When both are due at once the patience ends. -/
theorem elapse_cases (link : Link) (ms : Nat) :
    (link.elapse ms = ([], link.later ms) ∧
        (link.stage = .awaitingChannel → link.age + ms < link.patience) ∧
        (link.isUp = true → link.silence + ms < silenceLimit)) ∨
      (link.stage = .awaitingChannel ∧ link.patience ≤ link.age + ms ∧
        (link.patience - link.age ≤ silenceLimit - link.silence ∨
          link.silence + ms < silenceLimit) ∧
        link.elapse ms =
          (link.assignment.impatience :: link.assignment.farewell, (link.later ms).wearied)) ∨
      (link.isUp = true ∧ silenceLimit ≤ link.silence + ms ∧
        (link.stage = .awaitingChannel → link.age + ms < link.patience ∨
          silenceLimit - link.silence < link.patience - link.age) ∧
        link.elapse ms = (link.later ms).giveUp) := by
  have htires : link.tires ms = true ↔
      link.stage = .awaitingChannel ∧ link.patience ≤ link.age + ms := by
    simp [tires, awaitsChannel_iff]
  have hfalls : link.fallsSilent ms = true ↔
      link.isUp = true ∧ silenceLimit ≤ link.silence + ms := by
    simp [fallsSilent]
  have hfirst : link.tiresFirst = true ↔
      link.patience - link.age ≤ silenceLimit - link.silence := by
    simp [tiresFirst]
  unfold elapse
  split
  · rename_i hweary
    rw [Bool.and_eq_true, Bool.or_eq_true, Bool.not_eq_true', htires, hfirst] at hweary
    obtain ⟨⟨hstage, hpatience⟩, hsilence⟩ := hweary
    have hup : link.isUp = true := isUp_iff.mpr (by simp [hstage])
    refine .inr (.inl ⟨hstage, hpatience, hsilence.imp_right ?_, ?_⟩)
    · intro hquiet
      have := mt hfalls.mpr (Bool.eq_false_iff.mp hquiet)
      simpa [hup] using this
    · exact happen_waitedTooLong hstage
  · rename_i hpatient
    rw [Bool.and_eq_true, Bool.or_eq_true, Bool.not_eq_true', htires, hfirst, Bool.eq_false_iff,
      ne_eq, hfalls] at hpatient
    split
    · rename_i hsilent
      obtain ⟨hup, hsilence⟩ := hfalls.mp hsilent
      refine .inr (.inr ⟨hup, hsilence, ?_, rfl⟩)
      intro hstage
      by_cases hdue : link.patience ≤ link.age + ms
      · exact .inr (Nat.lt_of_not_le fun hle => hpatient ⟨⟨hstage, hdue⟩, .inl hle⟩)
      · exact .inl (Nat.lt_of_not_le hdue)
    · rename_i hheard
      rw [hfalls] at hheard
      refine .inl ⟨rfl, ?_, ?_⟩
      · intro hstage
        exact Nat.lt_of_not_le fun hle => hpatient ⟨⟨hstage, hle⟩, .inr hheard⟩
      · intro hup
        exact Nat.lt_of_not_le fun hle => hheard ⟨hup, hle⟩

/-- The end of a transport is no lost patience. -/
theorem message_sever {link : Link} {error : Option String} {line : Event}
    (h : line ∈ eventsOf (link.sever error).1) : line.message ≠ "No channel opened in time" := by
  intro hmessage
  simp only [sever, Stage.steps, List.append_nil, eventsOf_append, List.mem_append] at h
  rcases h with hended | harrived
  · cases (tired_of_mem_step hended hmessage).2
  · cases (tired_of_mem_step harrived hmessage).2

/-- Silence is no lost patience. -/
theorem message_giveUp {link : Link} {line : Event} (h : line ∈ eventsOf link.giveUp.1) :
    line.message ≠ "No channel opened in time" := by
  unfold giveUp at h
  split at h
  · intro hmessage
    cases (tired_of_mem_step h hmessage).2
  · exact message_sever h

/-- Time does not change what a worker knows. -/
@[simp] theorem assignment_elapse (link : Link) (ms : Nat) :
    (link.elapse ms).2.assignment = link.assignment := by
  rcases elapse_cases link ms with ⟨h, -⟩ | ⟨-, -, -, h⟩ | ⟨-, -, -, h⟩
  · rw [h]
    rfl
  · rw [h]
    rfl
  · rw [h, giveUp_eq]
    rfl

/-- However time passes, the age of a link grows by it. -/
@[simp] theorem age_elapse (link : Link) (ms : Nat) :
    (link.elapse ms).2.age = link.age + ms := by
  rcases elapse_cases link ms with ⟨h, -⟩ | ⟨-, -, -, h⟩ | ⟨-, -, -, h⟩
  · rw [h]
    rfl
  · rw [h]
    rfl
  · rw [h, giveUp_eq]
    rfl

/-- After some time a worker stands where it stood, with nothing due, or it has left. -/
theorem stage_elapse (link : Link) (ms : Nat) :
    ((link.elapse ms).2 = link.later ms ∧
        (link.stage = .awaitingChannel → link.age + ms < link.patience)) ∨
      (link.elapse ms).2.stage = .left := by
  rcases elapse_cases link ms with ⟨h, hpatience, -⟩ | ⟨-, -, -, h⟩ | ⟨-, -, -, h⟩
  · exact .inl ⟨by rw [h], hpatience⟩
  · rw [h]
    exact .inr rfl
  · rw [h, giveUp_eq]
    exact .inr rfl

/-- Time alone does not make a worker tell of a lost patience before it is due. -/
theorem tired_of_mem_elapse {link : Link} {ms : Nat} {line : Event}
    (h : line ∈ eventsOf (link.elapse ms).1)
    (hmessage : line.message = "No channel opened in time") :
    link.stage = .awaitingChannel ∧ link.patience ≤ link.age + ms ∧
      (link.elapse ms).2.stage = .left := by
  rcases elapse_cases link ms with ⟨hquiet, -⟩ | ⟨hstage, hdue, -, hweary⟩ | ⟨-, -, -, hsilent⟩
  · rw [hquiet] at h
    cases h
  · rw [hweary]
    exact ⟨hstage, hdue, rfl⟩
  · rw [hsilent] at h
    exact absurd hmessage (message_giveUp h)

/-- A time in which nothing is due may pass first. -/
theorem elapse_later {link : Link} {first : Nat}
    (hpatience : link.stage = .awaitingChannel → link.age + first < link.patience)
    (hsilence : link.isUp = true → link.silence + first < silenceLimit) (second : Nat) :
    link.elapse (first + second) = (link.later first).elapse second := by
  have hlater : link.later (first + second) = (link.later first).later second := by
    simp [later, Nat.add_assoc]
  have htires : link.tires (first + second) = (link.later first).tires second := by
    simp only [tires, later, Nat.add_assoc]
    rfl
  have hfalls : link.fallsSilent (first + second) = (link.later first).fallsSilent second := by
    simp only [fallsSilent, later, Nat.add_assoc]
    rfl
  unfold elapse
  rw [hlater, htires, hfalls]
  by_cases hstage : link.stage = .awaitingChannel
  · have hage := hpatience hstage
    have hheard := hsilence (isUp_iff.mpr (by simp [hstage]))
    have hfirst : link.tiresFirst = (link.later first).tiresFirst := by
      apply decide_eq_decide.mpr
      simp only [later, patience] at hage ⊢
      omega
    rw [hfirst]
  · have hawaits : (link.later first).tires second = false := by
      have hlink := mt awaitsChannel_iff.mp hstage
      simp_all [tires, later, awaitsChannel]
    simp [hawaits]

/-- Time may pass in two portions as well as in one. -/
theorem elapse_add (link : Link) (first second : Nat) :
    link.elapse (first + second) =
      ((link.elapse first).1 ++ ((link.elapse first).2.elapse second).1,
        ((link.elapse first).2.elapse second).2) := by
  have hlater : link.later (first + second) = (link.later first).later second := by
    simp [later, Nat.add_assoc]
  rcases elapse_cases link first with ⟨hquiet, hpatience, hsilence⟩ |
    ⟨hstage, hpatience, hfirst, hweary⟩ | ⟨hup, hsilence, hfirst, hsilent⟩
  · rw [hquiet, elapse_later hpatience hsilence second]
    rfl
  -- What was due first in the first portion is due first in both together.
  · have hleft : (link.later first).wearied.elapse second =
        ([], (link.later (first + second)).wearied) := by
      rw [elapse_of_left rfl, hlater]
      rfl
    rw [hweary, hleft, List.append_nil]
    rcases elapse_cases link (first + second) with ⟨-, hlate, -⟩ | ⟨-, -, -, hlink⟩ |
      ⟨-, -, hlate, -⟩
    · have := hlate hstage
      omega
    · exact hlink
    · have := hlate hstage
      omega
  · have hleft : (link.later first).ended.elapse second =
        ([], (link.later (first + second)).ended) := by
      rw [elapse_of_left rfl, hlater]
      rfl
    rw [hsilent, giveUp_eq, hleft, List.append_nil]
    rcases elapse_cases link (first + second) with ⟨-, -, hheard⟩ | ⟨hstage, hdue, hlate, -⟩ |
      ⟨-, -, -, hlink⟩
    · have := hheard hup
      omega
    · have := hfirst hstage
      omega
    · rw [hlink]
      exact Prod.ext (by rw [giveUp_later, giveUp_later]) (giveUp_eq _)

/-- A transport that is still up after some time has heard of its peer in time. -/
theorem heard_of_isUp {link : Link} {ms : Nat} (hlink : link.isUp = true)
    (h : (link.elapse ms).2.isUp = true) : link.silence + ms < silenceLimit := by
  rcases elapse_cases link ms with ⟨-, -, hheard⟩ | ⟨-, -, -, hweary⟩ | ⟨-, -, -, hsilent⟩
  · exact hheard hlink
  · rw [hweary] at h
    cases h
  · rw [hsilent, giveUp_eq] at h
    cases h

/-! ## The deadline -/

/-- How a connection ends for the lack of a channel: the worker says so, is gone, and has said
farewell by application. -/
structure GaveUp (assignment : Assignment) (lines : List Event) (link : Link) : Prop where
  lines : lines = timeoutLines assignment
  left : link.stage = .left
  farewell : link.farewell = some ⟨"ByApplication", ""⟩

/-- A worker that has given up stays so, and says nothing more. -/
theorem GaveUp.elapse {assignment : Assignment} {lines : List Event} {link : Link}
    (h : GaveUp assignment lines link) (ms : Nat) :
    GaveUp assignment (lines ++ eventsOf (link.elapse ms).1) (link.elapse ms).2 := by
  rw [elapse_of_left h.left]
  exact ⟨(List.append_nil _).trans h.lines, h.left, h.farewell⟩

/-- A worker that awaits a channel, within its patience, and has said no farewell. -/
structure Awaits (link : Link) : Prop where
  stage : link.stage = .awaitingChannel
  age : link.age < link.patience
  farewell : link.farewell = none

namespace Awaits

variable {link : Link} {ms : Nat}

/-- A worker that awaits a channel has its transport up. -/
theorem isUp (h : Awaits link) : link.isUp = true := isUp_iff.mpr (by simp [h.stage])

/-- After some time a worker still awaits a channel, if its transport is still up. -/
theorem elapse (h : Awaits link) (hup : (link.elapse ms).2.isUp = true) :
    link.elapse ms = ([], link.later ms) ∧ Awaits (link.elapse ms).2 := by
  rcases elapse_cases link ms with ⟨hquiet, hpatience, -⟩ | ⟨-, -, -, hweary⟩ | ⟨-, -, -, hsilent⟩
  · rw [hquiet]
    exact ⟨rfl, h.stage, hpatience h.stage, h.farewell⟩
  · rw [hweary] at hup
    cases hup
  · rw [hsilent, giveUp_eq] at hup
    cases hup

/-- At its deadline a worker that awaits a channel gives up, if the peer has not been silent for too
long before. After that it says nothing more. -/
theorem deadline (h : Awaits link) (hdeadline : link.age + ms = link.patience)
    (hheard : link.silence + (ms - 1) < silenceLimit) {later : Nat} (hlater : ms ≤ later) :
    GaveUp link.assignment (eventsOf (link.elapse later).1) (link.elapse later).2 := by
  have hage := h.age
  have hweary : link.elapse ms =
      (link.assignment.impatience :: link.assignment.farewell, (link.later ms).wearied) := by
    rcases elapse_cases link ms with ⟨-, hlate, -⟩ | ⟨-, -, -, hweary⟩ | ⟨-, hsilence, hlate, -⟩
    · have := hlate h.stage
      omega
    · exact hweary
    · have := hlate h.stage
      omega
  have hgaveUp : GaveUp link.assignment (eventsOf (link.elapse ms).1) (link.elapse ms).2 := by
    rw [hweary]
    exact ⟨rfl, rfl, by simp [wearied, Link.later, h.farewell, Ssh.farewell]⟩
  obtain ⟨rest, rfl⟩ := Nat.exists_eq_add_of_le hlater
  rw [elapse_add, eventsOf_append]
  exact hgaveUp.elapse rest

/-- At its deadline a worker that awaits a channel gives up, if its transport has been up until
then. -/
theorem deadline_of_isUp (h : Awaits link) (hdeadline : link.age + ms = link.patience)
    (hup : ∀ earlier < ms, (link.elapse earlier).2.isUp = true) {later : Nat}
    (hlater : ms ≤ later) :
    GaveUp link.assignment (eventsOf (link.elapse later).1) (link.elapse later).2 := by
  have hage := h.age
  exact h.deadline hdeadline (heard_of_isUp h.isUp (hup (ms - 1) (by omega))) hlater

end Awaits

end Link

end PongFixture.Ssh
