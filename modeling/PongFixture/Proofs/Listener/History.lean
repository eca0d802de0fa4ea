import Mathlib.Data.List.Nodup
import Mathlib.Logic.ExistsUnique
import PongFixture.Listener.Registry
import PongFixture.Proofs.Listener.Opening

/-!
# Open listeners never overlap

A registry is run through binds and drops, on a machine whose addresses and whose refusals may be
others at every request. All that is open at any time are listeners that do not overlap, each held
under one name (`Sound`). So a bind succeeds exactly if nothing that is open overlaps what it asks
for. Then its listener is open and held (`Gains`), and a bind that fails leaves the registry as it
was (`listeners_never_overlap`).
-/

set_option autoImplicit false

namespace PongFixture.Listener

open Address

namespace Registry

/-- The registry after requests, each made on the machine as it was at the time. -/
def run (registry : Registry) (history : List (Host × Step)) : Registry :=
  history.foldl (fun registry request => (registry.perform request.1 request.2).2) registry

/-- What is open: listeners, of which no two overlap, each held under exactly one name. -/
structure Sound (registry : Registry) : Prop where
  listens : ∀ socket ∈ registry.sockets, socket.IsListener
  apart : registry.sockets.Pairwise fun first second => ¬ Overlaps first.endpoint second.endpoint
  isHeld : ∀ socket ∈ registry.sockets, ∃ name, ⟨name, socket.number⟩ ∈ registry.held
  isOpen : ∀ handle ∈ registry.held, ∃ socket ∈ registry.sockets, socket.number = handle.number
  owners : (registry.held.map Handle.number).Nodup

/-- What a registry becomes when a name is dropped: everything else stays open and held. -/
structure Loses (before : Registry) (name : String) (after : Registry) : Prop where
  sockets : after.sockets =
    before.sockets.filter fun socket => ⟨name, socket.number⟩ ∉ before.held
  held : after.held = before.held.filter fun handle => handle.name ≠ name

/-- What a registry becomes when a socket is opened for a name: the socket has a number of its own,
it is open and held under that name, and what the name held before is closed. Everything else stays
open and held. -/
structure Gains (before : Registry) (name : String) (socket : Socket) (after : Registry) : Prop where
  fresh : ∀ other ∈ before.sockets, other.number ≠ socket.number
  sockets : after.sockets =
    (before.sockets.filter fun other => ⟨name, other.number⟩ ∉ before.held) ++ [socket]
  held : after.held =
    (before.held.filter fun handle => handle.name ≠ name) ++ [⟨name, socket.number⟩]

/-! ## Dropping -/

/-- Closing the sockets of handles one after the other closes those that have their numbers. -/
theorem foldl_close (handles : List Handle) (sockets : Sockets) :
    handles.foldl (fun sockets handle => sockets.close handle.number) sockets =
      sockets.filter fun socket => ∀ handle ∈ handles, socket.number ≠ handle.number := by
  induction handles generalizing sockets with
  | nil => simp
  | cons handle handles ih =>
    rw [List.foldl_cons, ih, Sockets.close, List.filter_filter]
    apply List.filter_congr
    intro socket _
    simp [Bool.and_comm]

section Close

variable {registry : Registry} {name : String}

/-- A drop closes the sockets that are held under its name. -/
theorem sockets_close (registry : Registry) (name : String) :
    (registry.close name).sockets =
      registry.sockets.filter fun socket => ⟨name, socket.number⟩ ∉ registry.held := by
  unfold close
  rw [foldl_close]
  apply List.filter_congr
  intro socket _
  rw [decide_eq_decide]
  simp only [List.mem_filter, beq_iff_eq]
  constructor
  · intro hother hheld
    exact hother _ ⟨hheld, rfl⟩ rfl
  · rintro hnot handle ⟨hheld, rfl⟩ hnumber
    exact hnot (hnumber ▸ hheld)

/-- A drop gives up the handles with its name. -/
theorem held_close (registry : Registry) (name : String) :
    (registry.close name).held = registry.held.filter fun handle => handle.name ≠ name := by
  apply List.filter_congr
  intro handle _
  rw [Bool.eq_iff_iff]
  simp

/-- A name is open if a handle with that name is held. -/
theorem isOpen_eq (registry : Registry) (name : String) :
    registry.isOpen name = decide (∃ handle ∈ registry.held, handle.name = name) := by
  rw [Bool.eq_iff_iff]
  simp [isOpen]

/-- The sockets that are open after a drop are those that its name did not hold. -/
theorem mem_sockets_close {socket : Socket} :
    socket ∈ (registry.close name).sockets ↔
      socket ∈ registry.sockets ∧ ⟨name, socket.number⟩ ∉ registry.held := by
  rw [sockets_close, List.mem_filter, decide_eq_true_iff]

/-- A drop opens nothing, and leaves the others in their order. -/
theorem sockets_close_sublist : (registry.close name).sockets.Sublist registry.sockets := by
  rw [sockets_close]
  exact List.filter_sublist

/-- The handles that are held after a drop are those with other names. -/
theorem mem_held_close {handle : Handle} :
    handle ∈ (registry.close name).held ↔ handle ∈ registry.held ∧ handle.name ≠ name := by
  rw [held_close, List.mem_filter, decide_eq_true_iff]

/-- A number is held under one name. -/
theorem Sound.eq_of_number (h : registry.Sound) {first second : Handle}
    (hfirst : first ∈ registry.held) (hsecond : second ∈ registry.held)
    (hnumber : first.number = second.number) : first = second :=
  List.inj_on_of_nodup_map h.owners hfirst hsecond hnumber

/-- What is left after a drop is as it was. -/
theorem Sound.close (h : registry.Sound) (name : String) : (registry.close name).Sound where
  listens socket hsocket := h.listens socket (sockets_close_sublist.subset hsocket)
  apart := h.apart.sublist sockets_close_sublist
  isHeld socket hsocket := by
    obtain ⟨hsocket, hother⟩ := mem_sockets_close.mp hsocket
    obtain ⟨holder, hholder⟩ := h.isHeld socket hsocket
    refine ⟨holder, mem_held_close.mpr ⟨hholder, ?_⟩⟩
    rintro rfl
    exact hother hholder
  isOpen handle hhandle := by
    obtain ⟨hhandle, hname⟩ := mem_held_close.mp hhandle
    obtain ⟨socket, hsocket, hnumber⟩ := h.isOpen handle hhandle
    refine ⟨socket, mem_sockets_close.mpr ⟨hsocket, ?_⟩, hnumber⟩
    intro hdropped
    exact hname (congrArg Handle.name (h.eq_of_number hhandle hdropped hnumber.symm))
  owners := h.owners.sublist (List.filter_sublist.map _)

end Close

/-! ## Binding -/

section Bind

variable {registry : Registry} {host : Host} {name : String} {endpoint : Endpoint}
variable {portOf : Option String}

/-- A number that no open socket has is held under no name. -/
theorem Sound.notMem_held (h : registry.Sound) {number : Nat}
    (hfresh : IsFresh number registry.sockets) (holder : String) :
    ⟨holder, number⟩ ∉ registry.held := by
  intro hheld
  obtain ⟨other, hother, hnumber⟩ := h.isOpen _ hheld
  exact hfresh other hother hnumber

/-- When a new socket is held, it is open after what its name did not hold before. -/
theorem Sound.sockets_hold (h : registry.Sound) {socket : Socket}
    (hfresh : IsFresh socket.number registry.sockets) :
    ({ registry with sockets := registry.sockets ++ [socket] }.hold name socket).sockets =
      (registry.close name).sockets ++ [socket] := by
  let opened : Registry := { registry with sockets := registry.sockets ++ [socket] }
  have hkept : ⟨name, socket.number⟩ ∉ opened.held := h.notMem_held hfresh name
  show (opened.close name).sockets = _
  rw [sockets_close, sockets_close, List.filter_append, List.filter_singleton,
    decide_eq_true hkept]
  rfl

/-- A listener that has just been opened, and overlaps nothing, may be held. -/
theorem Sound.hold (h : registry.Sound) (name : String) {actual : Endpoint}
    (hapart : registry.sockets.AreApartFrom actual) :
    let socket := Socket.listener registry.sockets.freeNumber actual
    ({ registry with sockets := registry.sockets ++ [socket] }.hold name socket).Sound := by
  intro socket
  let opened : Registry := { registry with sockets := registry.sockets ++ [socket] }
  have hfresh : IsFresh socket.number registry.sockets := isFresh_freeNumber registry.sockets
  have hopen : (opened.hold name socket).sockets = (registry.close name).sockets ++ [socket] :=
    h.sockets_hold hfresh
  have hsockets {other : Socket} : other ∈ (opened.hold name socket).sockets ↔
      other ∈ (registry.close name).sockets ∨ other = socket := by
    rw [hopen, List.mem_append, List.mem_singleton]
  have hheld {handle : Handle} : handle ∈ (opened.hold name socket).held ↔
      handle ∈ (registry.close name).held ∨ handle = ⟨name, socket.number⟩ := by
    show handle ∈ (registry.close name).held ++ [_] ↔ _
    rw [List.mem_append, List.mem_singleton]
  have hclosed := h.close name
  constructor
  · intro other hother
    rcases hsockets.mp hother with hother | rfl
    · exact hclosed.listens other hother
    · exact isListener_listener _ actual
  · rw [hopen, List.pairwise_append]
    refine ⟨hclosed.apart, List.pairwise_singleton _ _, ?_⟩
    intro other hother new hnew
    rw [List.mem_singleton.mp hnew]
    exact fun hoverlap => hapart other (sockets_close_sublist.subset hother) hoverlap.symm
  · intro other hother
    rcases hsockets.mp hother with hother | rfl
    · obtain ⟨holder, hholder⟩ := hclosed.isHeld other hother
      exact ⟨holder, hheld.mpr (.inl hholder)⟩
    · exact ⟨name, hheld.mpr (.inr rfl)⟩
  · intro handle hhandle
    rcases hheld.mp hhandle with hhandle | rfl
    · obtain ⟨other, hother, hnumber⟩ := hclosed.isOpen handle hhandle
      exact ⟨other, hsockets.mpr (.inl hother), hnumber⟩
    · exact ⟨socket, hsockets.mpr (.inr rfl), rfl⟩
  · show (((registry.close name).held ++ [(⟨name, socket.number⟩ : Handle)]).map
      Handle.number).Nodup
    rw [List.map_append, List.nodup_append]
    refine ⟨hclosed.owners, List.nodup_singleton _, ?_⟩
    intro number hnumber other hother
    obtain ⟨handle, hhandle, rfl⟩ := List.mem_map.mp hnumber
    obtain ⟨holder, hholder, hsame⟩ := hclosed.isOpen handle hhandle
    obtain rfl : other = socket.number := by simpa using hother
    rw [← hsame]
    exact hfresh holder (sockets_close_sublist.subset hholder)

/-- A bind that fails leaves the registry as it was. -/
theorem perform_of_error {fault : Fault} {after : Sockets}
    (h : host.openListener (registry.requested endpoint portOf) registry.sockets =
      (.error fault, after)) :
    registry.perform host (.bind name endpoint portOf) = (.failed fault, registry) := by
  simp only [perform, h]
  rw [openListener_of_error h]

/-- A bind that opens a listener holds it under its name. -/
theorem perform_of_ok {socket : Socket} {after : Sockets}
    (h : host.openListener (registry.requested endpoint portOf) registry.sockets =
      (.ok socket, after)) :
    registry.perform host (.bind name endpoint portOf) =
      (.bound socket.endpoint (registry.requested endpoint portOf).port,
        { registry with sockets := after }.hold name socket) := by
  simp only [perform, h]

/-- A bind that succeeds was refused at no call, and the machine has the address. It opens a listener
at the endpoint that it answers with, which overlaps nothing that is open and is the one it asks for
if that says a port. -/
theorem Sound.gains_of_bound (h : registry.Sound) {actual : Endpoint} {port : UInt16}
    (hbound : (registry.perform host (.bind name endpoint portOf)).1 = .bound actual port) :
    let asked := registry.requested endpoint portOf
    (∀ call, host.refusal call = none) ∧ host.has asked.ip = true ∧ port = asked.port ∧
      (asked.port ≠ 0 → actual = asked) ∧ registry.sockets.AreApartFrom actual ∧
      ∃ number, registry.Gains name (.listener number actual)
        (registry.perform host (.bind name endpoint portOf)).2 := by
  intro asked
  cases hopened : host.openListener asked registry.sockets with
  | mk result after =>
    cases result with
    | error fault =>
      rw [perform_of_error hopened] at hbound
      cases hbound
    | ok socket =>
      have hallowed := refusal_of_openListener_ok hopened
      obtain ⟨place, rfl, rfl, hapart, hhas, hasked⟩ := openListener_of_ok h.listens hopened
      rw [perform_of_ok hopened] at hbound ⊢
      cases hbound
      have hfresh := isFresh_freeNumber registry.sockets
      refine ⟨hallowed, hhas, rfl, hasked, hapart, registry.sockets.freeNumber, hfresh, ?_, ?_⟩
      · rw [← sockets_close]
        exact h.sockets_hold hfresh
      · rw [← held_close]
        rfl

/-- A bind that answers with a fault leaves the registry as it was. -/
theorem perform_of_failed {fault : Fault}
    (h : (registry.perform host (.bind name endpoint portOf)).1 = .failed fault) :
    (registry.perform host (.bind name endpoint portOf)).2 = registry := by
  cases hopened : host.openListener (registry.requested endpoint portOf) registry.sockets with
  | mk result after =>
    cases result with
    | error broken => exact congrArg Prod.snd (perform_of_error hopened)
    | ok socket =>
      rw [perform_of_ok hopened] at h
      cases h

end Bind

/-! ## Requests -/

/-- Every request keeps a registry sound. -/
theorem Sound.perform {registry : Registry} (h : registry.Sound) (host : Host) (request : Step) :
    (registry.perform host request).2.Sound := by
  cases request with
  | drop name => exact h.close name
  | bind name endpoint portOf =>
    cases hopened : host.openListener (registry.requested endpoint portOf) registry.sockets with
    | mk result after =>
      cases result with
      | error fault =>
        rw [perform_of_error hopened]
        exact h
      | ok socket =>
        obtain ⟨actual, rfl, rfl, hapart, -, -⟩ := openListener_of_ok h.listens hopened
        rw [perform_of_ok hopened]
        exact h.hold name hapart

/-- So does any history of requests. -/
theorem Sound.run {registry : Registry} (h : registry.Sound) (history : List (Host × Step)) :
    (registry.run history).Sound := by
  induction history generalizing registry with
  | nil => exact h
  | cons request history ih => exact ih (h.perform request.1 request.2)

/-- There is nothing wrong with an empty registry. -/
theorem sound_empty : empty.Sound where
  listens := by simp [empty]
  apart := List.Pairwise.nil
  isHeld := by simp [empty]
  isOpen := by simp [empty]
  owners := List.nodup_nil

/-! ## Drops -/

section Drops

variable (registry : Registry) (host : Host) (names : List String)

/-- The registry when names have been dropped. -/
def afterDrops : Registry := registry.run (names.map fun name => (host, .drop name))

/-- Drops change nothing about what a bind asks for. -/
theorem requested_afterDrops (endpoint : Endpoint) (portOf : Option String) :
    (registry.afterDrops host names).requested endpoint portOf =
      registry.requested endpoint portOf := by
  have hports : (registry.afterDrops host names).lastPorts = registry.lastPorts := by
    induction names generalizing registry with
    | nil => rfl
    | cons name names ih => exact ih (registry.close name)
  unfold requested lastPort?
  rw [hports]

/-- Drops close what is held under their names, and nothing else. -/
theorem mem_sockets_afterDrops {socket : Socket} :
    socket ∈ (registry.afterDrops host names).sockets ↔
      socket ∈ registry.sockets ∧ ∀ name ∈ names, ⟨name, socket.number⟩ ∉ registry.held := by
  induction names generalizing registry with
  | nil => simp [afterDrops, run]
  | cons name names ih =>
    have hafter := ih (registry.close name)
    rw [mem_sockets_close, and_assoc] at hafter
    refine hafter.trans (and_congr_right fun _ => ?_)
    rw [List.forall_mem_cons]
    apply and_congr_right
    intro hdropped
    apply forall₂_congr
    intro other _
    rw [mem_held_close, not_and_not_right]
    constructor
    · intro hsame hheld
      exact hdropped (hsame hheld ▸ hheld)
    · intro hnot hheld
      exact absurd hheld hnot

/-- An endpoint overlaps nothing after drops that close all that it overlapped before. -/
theorem areApartFrom_afterDrops_iff {asked : Endpoint} :
    (registry.afterDrops host names).sockets.AreApartFrom asked ↔
      ∀ socket ∈ registry.sockets, Overlaps asked socket.endpoint →
        ∃ holder ∈ names, ⟨holder, socket.number⟩ ∈ registry.held := by
  constructor
  · intro hapart socket hsocket hoverlap
    by_contra hnone
    refine hapart socket ((registry.mem_sockets_afterDrops host names).mpr ⟨hsocket, ?_⟩) hoverlap
    intro holder hholder hheld
    exact hnone ⟨holder, hholder, hheld⟩
  · intro hdropped socket hsocket hoverlap
    obtain ⟨hsocket, hheld⟩ := (registry.mem_sockets_afterDrops host names).mp hsocket
    obtain ⟨holder, hholder, hholds⟩ := hdropped socket hsocket hoverlap
    exact hheld holder hholder hholds

end Drops

/-! ## What a bind comes to -/

section Outcome

variable {registry : Registry} {host : Host}

/-- On a machine that has the address and refuses no call, a bind succeeds if nothing that is open
overlaps what it asks for, and fails with the address in use if something does. -/
theorem Sound.bind_outcome (h : registry.Sound) (name : String) (endpoint : Endpoint)
    (portOf : Option String) (hwilling : ∀ call, host.refusal call = none)
    (hhas : host.has (registry.requested endpoint portOf).ip = true)
    (hport : (registry.requested endpoint portOf).port ≠ 0) :
    (registry.sockets.AreApartFrom (registry.requested endpoint portOf) ∧
      (registry.perform host (.bind name endpoint portOf)).1 =
        .bound (registry.requested endpoint portOf) (registry.requested endpoint portOf).port) ∨
    (¬ registry.sockets.AreApartFrom (registry.requested endpoint portOf) ∧
      (registry.perform host (.bind name endpoint portOf)).1 = .failed .addressInUse) := by
  by_cases hapart : registry.sockets.AreApartFrom (registry.requested endpoint portOf)
  · have hopened := openListener_willing hwilling h.listens hhas hport hapart
    exact .inl ⟨hapart, by rw [perform_of_ok hopened]; rfl⟩
  · have hopened := openListener_of_overlap hwilling h.listens hhas hport hapart
    exact .inr ⟨hapart, by rw [perform_of_error hopened]⟩

/-- On a machine that has the address and refuses no call, a bind succeeds exactly if nothing that
is open overlaps what it asks for. -/
theorem Sound.bound_iff (h : registry.Sound) (name : String) (endpoint : Endpoint)
    (portOf : Option String) (hwilling : ∀ call, host.refusal call = none)
    (hhas : host.has (registry.requested endpoint portOf).ip = true)
    (hport : (registry.requested endpoint portOf).port ≠ 0) :
    (registry.perform host (.bind name endpoint portOf)).1 =
        .bound (registry.requested endpoint portOf) (registry.requested endpoint portOf).port ↔
      registry.sockets.AreApartFrom (registry.requested endpoint portOf) := by
  rcases h.bind_outcome name endpoint portOf hwilling hhas hport with
    ⟨hapart, hanswer⟩ | ⟨hoverlap, hanswer⟩
  · simp [hanswer, hapart]
  · simp [hanswer, hoverlap]

/-- On such a machine the address is in use exactly if something that is open overlaps it. -/
theorem Sound.inUse_iff (h : registry.Sound) (name : String) (endpoint : Endpoint)
    (portOf : Option String) (hwilling : ∀ call, host.refusal call = none)
    (hhas : host.has (registry.requested endpoint portOf).ip = true)
    (hport : (registry.requested endpoint portOf).port ≠ 0) :
    (registry.perform host (.bind name endpoint portOf)).1 = .failed .addressInUse ↔
      ∃ socket ∈ registry.sockets,
        Overlaps (registry.requested endpoint portOf) socket.endpoint := by
  rcases h.bind_outcome name endpoint portOf hwilling hhas hport with
    ⟨hapart, hanswer⟩ | ⟨hoverlap, hanswer⟩
  · rw [hanswer]
    simpa [Sockets.AreApartFrom] using hapart
  · rw [hanswer]
    simpa [Sockets.AreApartFrom] using hoverlap

end Outcome

end Registry

/-- After any binds and drops, on a machine whose addresses and refusals change as they like, all
that is open are listeners, no two of which overlap, each held under one name. A drop closes what is
held under its name, and nothing else. A bind succeeds only on a machine that has the address and
refuses none of its calls; it opens a listener that overlaps none of those that are open, in place of
what its name held. One that fails, whichever of its calls did, leaves the registry as it was. On a
machine that has the address and refuses no call, a bind to a port of its own succeeds exactly if it
overlaps no open listener, and otherwise fails with the address in use; it succeeds then exactly
after drops that close all the listeners it overlaps. -/
theorem listeners_never_overlap (history : List (Host × Step)) :
    let registry := Registry.empty.run history
    registry.sockets.Pairwise (fun first second => ¬ Overlaps first.endpoint second.endpoint) ∧
    (∀ socket ∈ registry.sockets, socket = .listener socket.number socket.endpoint ∧
      ∃! name, ⟨name, socket.number⟩ ∈ registry.held) ∧
    (∀ (host : Host) (name : String),
      (registry.perform host (.drop name)).1 =
        .dropped (∃ handle ∈ registry.held, handle.name = name) ∧
      registry.Loses name (registry.perform host (.drop name)).2) ∧
    ∀ (host : Host) (name : String) (endpoint : Endpoint) (portOf : Option String),
      let request := Step.bind name endpoint portOf
      let asked := registry.requested endpoint portOf
      (∀ actual port, (registry.perform host request).1 = .bound actual port →
        (∀ call, host.refusal call = none) ∧ host.has asked.ip = true ∧ port = asked.port ∧
          (asked.port ≠ 0 → actual = asked) ∧
          (∀ socket ∈ registry.sockets, ¬ Overlaps actual socket.endpoint) ∧
          ∃ number, registry.Gains name (.listener number actual)
            (registry.perform host request).2) ∧
      (∀ fault, (registry.perform host request).1 = .failed fault →
        (registry.perform host request).2 = registry) ∧
      ((∀ call, host.refusal call = none) → host.has asked.ip = false →
        (registry.perform host request).1 = .failed .addressNotAvailable) ∧
      ((∀ call, host.refusal call = none) → host.has asked.ip = true → asked.port ≠ 0 →
        ((registry.perform host request).1 = .bound asked asked.port ↔
          ∀ socket ∈ registry.sockets, ¬ Overlaps asked socket.endpoint) ∧
        ((registry.perform host request).1 = .failed .addressInUse ↔
          ∃ socket ∈ registry.sockets, Overlaps asked socket.endpoint) ∧
        ∀ names : List String,
          ((registry.afterDrops host names).perform host request).1 = .bound asked asked.port ↔
            ∀ socket ∈ registry.sockets, Overlaps asked socket.endpoint →
              ∃ holder ∈ names, ⟨holder, socket.number⟩ ∈ registry.held) := by
  intro registry
  have hsound : registry.Sound := Registry.sound_empty.run history
  refine ⟨hsound.apart, ?_, ?_, ?_⟩
  · intro socket hsocket
    obtain ⟨name, hname⟩ := hsound.isHeld socket hsocket
    refine ⟨hsound.listens socket hsocket, name, hname, ?_⟩
    intro other hother
    exact congrArg Handle.name (hsound.eq_of_number hother hname rfl)
  · intro host name
    refine ⟨?_, registry.sockets_close name, registry.held_close name⟩
    exact congrArg StepAnswer.dropped (registry.isOpen_eq name)
  · intro host name endpoint portOf request asked
    refine ⟨?_, ?_, ?_, ?_⟩
    · intro actual port hbound
      exact hsound.gains_of_bound hbound
    · intro fault hfails
      exact Registry.perform_of_failed hfails
    · intro hwilling hhas
      have hopened : host.openListener asked registry.sockets =
          (.error .addressNotAvailable, registry.sockets) := openListener_of_not_has hwilling hhas
      exact congrArg Prod.fst (Registry.perform_of_error hopened)
    · intro hwilling hhas hport
      refine ⟨hsound.bound_iff name endpoint portOf hwilling hhas hport,
        hsound.inUse_iff name endpoint portOf hwilling hhas hport, ?_⟩
      intro names
      have hasked : (registry.afterDrops host names).requested endpoint portOf = asked :=
        registry.requested_afterDrops host names endpoint portOf
      have hafter : (registry.afterDrops host names).Sound := hsound.run _
      have hbound := hafter.bound_iff name endpoint portOf hwilling (hasked ▸ hhas)
        (hasked ▸ hport)
      rw [hasked] at hbound
      exact hbound.trans (registry.areApartFrom_afterDrops_iff host names)

/-- The wildcard of version 6 keeps an address of version 4 in use until it is dropped. -/
example :
    let wide : Endpoint := .v6 any6 0 4023
    let narrow : Endpoint := .v4 ⟨127, 0, 0, 1⟩ 4023
    (Registry.empty.steps .lending
      [.bind "first" wide none, .bind "second" narrow none, .drop "first",
        .bind "second" narrow none]).1 =
      [.bound wide 4023, .failed .addressInUse, .dropped true, .bound narrow 4023] := by decide

end PongFixture.Listener
