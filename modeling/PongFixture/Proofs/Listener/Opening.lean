import PongFixture.Listener.Socket

/-!
# What opening a listener does to the sockets of a machine

The calls that open a listener concern the new socket alone: whatever they come to, the other sockets
stay as they were (`prepare_sockets`), and a socket whose preparation fails is closed, so that an
attempt that fails leaves no trace (`openListener_of_error`). One that succeeds was refused at none of
its calls (`refusal_of_openListener_ok`) and leaves a listener that overlaps none of the others, as long
as these are listeners too (`openListener_of_ok`). On a machine that refuses no call, it succeeds if the
address is there and nothing overlaps (`openListener_willing`).
-/

set_option autoImplicit false

namespace PongFixture.Listener

open Address

/-! ## One more socket in the table -/

/-- The number of every open socket is below the free number. -/
theorem lt_freeNumber {sockets : Sockets} {socket : Socket} (h : socket ∈ sockets) :
    socket.number < sockets.freeNumber := by
  induction sockets with
  | nil => simp at h
  | cons first sockets ih =>
    show socket.number < max (first.number + 1) (Sockets.freeNumber sockets)
    rcases List.mem_cons.mp h with rfl | hlater
    · omega
    · have := ih hlater
      omega

/-- A number that belongs to no socket of a table. -/
def IsFresh (number : Nat) (sockets : Sockets) : Prop := ∀ socket ∈ sockets, socket.number ≠ number

/-- The free number is that of no open socket. -/
theorem isFresh_freeNumber (sockets : Sockets) : IsFresh sockets.freeNumber sockets := by
  intro socket hsocket
  exact Nat.ne_of_lt (lt_freeNumber hsocket)

section Fresh

variable {sockets : Sockets} {number : Nat}

/-- Closing a number that no socket has closes nothing. -/
theorem close_of_isFresh (h : IsFresh number sockets) : sockets.close number = sockets := by
  apply List.filter_eq_self.mpr
  intro socket hsocket
  simpa using h socket hsocket

/-- A socket whose number no other one has takes the place of none. -/
theorem put_of_isFresh {socket : Socket} (h : IsFresh socket.number sockets) :
    sockets.put socket = sockets := by
  have hsame : ∀ other ∈ sockets, (if other.number = socket.number then socket else other) = other :=
    fun other hother => if_neg (h other hother)
  exact (List.map_congr_left hsame).trans (List.map_id _)

/-- Closing a socket that has just been added leaves the sockets from before. -/
theorem close_append (h : IsFresh number sockets) {socket : Socket} (hnumber : socket.number = number) :
    (sockets ++ [socket]).close number = sockets := by
  have hclose := close_of_isFresh h
  unfold Sockets.close at hclose ⊢
  rw [List.filter_append, hclose]
  simp [hnumber]

/-- A socket that has just been added is the one that is replaced by its number. -/
theorem put_append {socket next : Socket} (h : IsFresh next.number sockets)
    (hnumber : socket.number = next.number) :
    (sockets ++ [socket]).put next = sockets ++ [next] := by
  have hput := put_of_isFresh h
  unfold Sockets.put at hput ⊢
  rw [List.map_append, hput]
  simp [hnumber]

end Fresh

/-! ## The calls on a new socket -/

section Calls

variable {host : Host} {endpoint : Endpoint} {sockets : Sockets} {socket next : Socket}

/-- What it takes to bind a socket. -/
theorem bind_eq_ok_iff {machine : Machine} :
    machine.bind sockets socket endpoint = .ok next ↔
      socket.isV6 = endpoint.isV6 ∧ machine.has endpoint.ip = true ∧
      ∃ actual, sockets.withFreePort? socket endpoint = some actual ∧
        sockets.admits socket actual = true ∧ next = { socket with bound := some actual } := by
  unfold Machine.bind
  by_cases hfamily : socket.isV6 = endpoint.isV6
  · by_cases hhas : machine.has endpoint.ip = true
    · rw [if_neg (not_not_intro hfamily), if_pos hhas]
      cases hport : sockets.withFreePort? socket endpoint with
      | none => simp
      | some actual =>
        by_cases hadmits : sockets.admits socket actual = true
        · simp only [if_pos hadmits]
          constructor
          · intro h
            exact ⟨hfamily, hhas, actual, rfl, hadmits, (Except.ok.inj h).symm⟩
          · rintro ⟨-, -, same, hsame, -, rfl⟩
            rw [Option.some.inj hsame]
        · simp [hadmits]
    · simp [hfamily, hhas]
  · simp [hfamily]

/-- A socket comes to listen if no other one is heard where it is bound. -/
theorem listen_eq_ok_iff :
    sockets.listen socket = .ok next ↔
      (∀ other ∈ sockets.besides socket, other.isHeardAt socket.bound = false) ∧
      next = { socket with isListening := true } := by
  unfold Sockets.listen
  by_cases hheard : (sockets.besides socket).any (fun other => other.isHeardAt socket.bound) = true
  · obtain ⟨other, hother, hat⟩ := List.any_eq_true.mp hheard
    rw [if_pos hheard]
    constructor
    · intro h
      cases h
    · rintro ⟨hnone, -⟩
      rw [hnone other hother] at hat
      contradiction
  · rw [if_neg hheard]
    have hnone : ∀ other ∈ sockets.besides socket, other.isHeardAt socket.bound = false := by
      simpa using hheard
    refine ⟨fun h => ⟨hnone, (Except.ok.inj h).symm⟩, ?_⟩
    rintro ⟨-, rfl⟩
    rfl

/-- A call succeeds if the machine does not refuse it and carries it out. -/
theorem perform_eq_ok_iff {call : Call} :
    host.perform sockets endpoint socket call = .ok next ↔
      host.refusal call = none ∧ host.carryOut sockets endpoint socket call = .ok next := by
  unfold Host.perform
  cases host.refusal call <;> simp

/-- A call keeps the number of its socket. -/
theorem number_of_perform {call : Call} (h : host.perform sockets endpoint socket call = .ok next) :
    next.number = socket.number := by
  obtain ⟨-, hcall⟩ := perform_eq_ok_iff.mp h
  cases call with
  | create | reuseAddress | nonBlocking | register => rw [← Except.ok.inj hcall]
  | bind =>
    obtain ⟨-, -, actual, -, -, rfl⟩ := bind_eq_ok_iff.mp hcall
    rfl
  | listen =>
    obtain ⟨-, rfl⟩ := listen_eq_ok_iff.mp hcall
    rfl

/-- The first call that fails ends the preparation with its fault. -/
theorem prepare_of_perform_error {call : Call} {calls : List Call} {fault : Fault}
    (h : host.perform sockets endpoint socket call = .error fault) :
    host.prepare endpoint (call :: calls) socket sockets = (.error fault, sockets) := by
  rw [Host.prepare, h]

/-- A call that succeeds puts the changed socket in the place of the new one, and the other calls
follow. -/
theorem prepare_of_perform_ok {call : Call} {calls : List Call}
    (hfresh : IsFresh socket.number sockets)
    (h : host.perform (sockets ++ [socket]) endpoint socket call = .ok next) :
    host.prepare endpoint (call :: calls) socket (sockets ++ [socket]) =
      host.prepare endpoint calls next (sockets ++ [next]) := by
  have hnumber := number_of_perform h
  rw [Host.prepare, h]
  show host.prepare endpoint calls next ((sockets ++ [socket]).put next) = _
  rw [put_append (hnumber ▸ hfresh) hnumber.symm]

/-- However far the calls on a new socket come, the other sockets stay as they were. -/
theorem prepare_sockets (host : Host) (endpoint : Endpoint) (calls : List Call)
    (hfresh : IsFresh socket.number sockets) :
    ∃ last : Socket, last.number = socket.number ∧
      (host.prepare endpoint calls socket (sockets ++ [socket])).2 = sockets ++ [last] := by
  induction calls generalizing socket with
  | nil => exact ⟨socket, rfl, rfl⟩
  | cons call calls ih =>
    cases hcall : host.perform (sockets ++ [socket]) endpoint socket call with
    | error fault => exact ⟨socket, rfl, by rw [prepare_of_perform_error hcall]⟩
    | ok next =>
      have hnumber := number_of_perform hcall
      rw [prepare_of_perform_ok hfresh hcall]
      obtain ⟨last, hlast, hsockets⟩ := ih (hnumber ▸ hfresh)
      exact ⟨last, hlast.trans hnumber, hsockets⟩

/-- Calls that all succeed have done so one after the other. -/
theorem perform_of_prepare_ok {call : Call} {calls : List Call} {last : Socket} {after : Sockets}
    (hfresh : IsFresh socket.number sockets)
    (h : host.prepare endpoint (call :: calls) socket (sockets ++ [socket]) = (.ok last, after)) :
    ∃ next, host.perform (sockets ++ [socket]) endpoint socket call = .ok next ∧
      next.number = socket.number ∧
      host.prepare endpoint calls next (sockets ++ [next]) = (.ok last, after) := by
  cases hcall : host.perform (sockets ++ [socket]) endpoint socket call with
  | error fault =>
    rw [prepare_of_perform_error hcall] at h
    cases (Prod.mk.inj h).1
  | ok next =>
    rw [prepare_of_perform_ok hfresh hcall] at h
    exact ⟨next, rfl, number_of_perform hcall, h⟩

/-- Calls that all succeed are calls that the machine does not refuse. -/
theorem refusal_of_prepare_ok {calls : List Call} {last : Socket} {after : Sockets}
    (hfresh : IsFresh socket.number sockets)
    (h : host.prepare endpoint calls socket (sockets ++ [socket]) = (.ok last, after)) :
    ∀ call ∈ calls, host.refusal call = none := by
  induction calls generalizing socket with
  | nil => simp
  | cons call calls ih =>
    obtain ⟨next, hcall, hnumber, hrest⟩ := perform_of_prepare_ok hfresh h
    rw [List.forall_mem_cons]
    exact ⟨(perform_eq_ok_iff.mp hcall).1, ih (hnumber ▸ hfresh) hrest⟩

end Calls

/-! ## Opening beside listeners -/

/-- A socket that has gone through all preparing calls. -/
def Socket.IsListener (socket : Socket) : Prop := socket = .listener socket.number socket.endpoint

/-- A listener at an endpoint is one. -/
theorem isListener_listener (number : Nat) (endpoint : Endpoint) :
    (Socket.listener number endpoint).IsListener := rfl

/-- A listener listens. -/
theorem Socket.IsListener.isListening {socket : Socket} (h : socket.IsListener) :
    socket.isListening = true := by
  rw [h]
  rfl

/-- A listener is bound to its endpoint. -/
theorem Socket.IsListener.bound_eq {socket : Socket} (h : socket.IsListener) :
    socket.bound = some socket.endpoint := by
  rw [h]
  rfl

/-- A listener keeps others from being bound to what it overlaps, whether or not they let addresses
be reused. -/
theorem Socket.IsListener.obstructs_eq {other : Socket} (h : other.IsListener) (socket : Socket)
    (endpoint : Endpoint) : other.obstructs socket endpoint = overlaps endpoint other.endpoint := by
  unfold obstructs
  rw [h.bound_eq, h.isListening]
  simp

/-- A listener is heard where an endpoint overlaps its own. -/
theorem Socket.IsListener.isHeardAt_eq {other : Socket} (h : other.IsListener) (endpoint : Endpoint) :
    other.isHeardAt (some endpoint) = overlaps endpoint other.endpoint := by
  unfold isHeardAt
  rw [h.bound_eq, h.isListening]
  rfl

/-- Nothing that is open overlaps an endpoint. -/
def Sockets.AreApartFrom (sockets : Sockets) (endpoint : Endpoint) : Prop :=
  ∀ other ∈ sockets, ¬ Overlaps endpoint other.endpoint

section Listeners

variable {sockets : Sockets} {socket : Socket}

/-- Beside a socket that has just been added there are the sockets from before. -/
theorem besides_append (hfresh : IsFresh socket.number sockets) :
    Sockets.besides (sockets ++ [socket]) socket = sockets :=
  close_append hfresh rfl

/-- A new socket can be bound beside listeners if it overlaps none of them. -/
theorem admits_append_iff (hlisteners : ∀ other ∈ sockets, other.IsListener)
    (hfresh : IsFresh socket.number sockets) (endpoint : Endpoint) :
    Sockets.admits (sockets ++ [socket]) socket endpoint = true ↔
      sockets.AreApartFrom endpoint := by
  unfold Sockets.admits Sockets.AreApartFrom
  rw [besides_append hfresh, List.all_eq_true]
  apply forall₂_congr
  intro other hother
  rw [(hlisteners other hother).obstructs_eq, Bool.not_eq_true', ← overlaps_eq_true_iff,
    Bool.not_eq_true]

/-- A new socket that is bound may listen beside listeners, if it overlaps none of them. -/
theorem listen_append (hlisteners : ∀ other ∈ sockets, other.IsListener)
    (hfresh : IsFresh socket.number sockets) {endpoint : Endpoint}
    (hbound : socket.bound = some endpoint) (hapart : sockets.AreApartFrom endpoint) :
    Sockets.listen (sockets ++ [socket]) socket = .ok { socket with isListening := true } := by
  refine listen_eq_ok_iff.mpr ⟨?_, rfl⟩
  rw [besides_append hfresh, hbound]
  intro other hother
  rw [(hlisteners other hother).isHeardAt_eq, ← Bool.not_eq_true, overlaps_eq_true_iff]
  exact hapart other hother

/-- A port that is handed out does not change the version of an endpoint. -/
theorem isV6_of_withFreePort? {endpoint actual : Endpoint}
    (h : sockets.withFreePort? socket endpoint = some actual) : actual.isV6 = endpoint.isV6 := by
  unfold Sockets.withFreePort? at h
  split at h
  · obtain ⟨n, -, rfl⟩ := Option.map_eq_some_iff.mp h
    cases endpoint <;> rfl
  · rw [Option.some.inj h]

/-- An endpoint that says a port keeps it. -/
theorem withFreePort?_of_ne_zero {endpoint : Endpoint} (h : endpoint.port ≠ 0) :
    sockets.withFreePort? socket endpoint = some endpoint := if_neg h

end Listeners

section Opening

variable {host : Host} {endpoint : Endpoint} {sockets : Sockets}

/-- An attempt to open a listener that fails leaves the sockets as they were. -/
theorem openListener_of_error {fault : Fault} {after : Sockets}
    (h : host.openListener endpoint sockets = (.error fault, after)) : after = sockets := by
  unfold Host.openListener at h
  cases hcreate : host.perform sockets endpoint (.new sockets.freeNumber endpoint.isV6) .create with
  | error broken =>
    simp only [hcreate] at h
    exact (Prod.mk.inj h).2.symm
  | ok socket =>
    simp only [hcreate] at h
    have hfresh : IsFresh socket.number sockets := by
      rw [number_of_perform hcreate]
      exact isFresh_freeNumber sockets
    obtain ⟨last, hlast, hsockets⟩ := prepare_sockets host endpoint Call.preparing hfresh
    cases hprepare : host.prepare endpoint Call.preparing socket (sockets ++ [socket]) with
    | mk result open' =>
      rw [hprepare] at h hsockets
      cases result with
      | ok listener => cases (Prod.mk.inj h).1
      | error broken =>
        obtain ⟨-, rfl⟩ := Prod.mk.inj h
        rw [show open' = sockets ++ [last] from hsockets]
        exact close_append hfresh hlast

/-- An attempt that succeeds has made a socket and gone through all preparing calls. -/
theorem prepare_of_openListener_ok {socket : Socket} {after : Sockets}
    (h : host.openListener endpoint sockets = (.ok socket, after)) :
    host.refusal .create = none ∧
      host.prepare endpoint Call.preparing (.new sockets.freeNumber endpoint.isV6)
        (sockets ++ [.new sockets.freeNumber endpoint.isV6]) = (.ok socket, after) := by
  unfold Host.openListener at h
  cases hcreate : host.perform sockets endpoint (.new sockets.freeNumber endpoint.isV6) .create with
  | error broken =>
    simp only [hcreate] at h
    cases (Prod.mk.inj h).1
  | ok created =>
    obtain ⟨hallowed, hmade⟩ := perform_eq_ok_iff.mp hcreate
    obtain rfl : Socket.new sockets.freeNumber endpoint.isV6 = created := Except.ok.inj hmade
    simp only [hcreate] at h
    refine ⟨hallowed, ?_⟩
    cases hprepare : host.prepare endpoint Call.preparing (.new sockets.freeNumber endpoint.isV6)
        (sockets ++ [.new sockets.freeNumber endpoint.isV6]) with
    | mk result sockets' =>
      rw [hprepare] at h
      cases result with
      | error broken => cases (Prod.mk.inj h).1
      | ok last => exact h

/-- An attempt that succeeds is refused at none of its calls. -/
theorem refusal_of_openListener_ok {socket : Socket} {after : Sockets}
    (h : host.openListener endpoint sockets = (.ok socket, after)) (call : Call) :
    host.refusal call = none := by
  obtain ⟨hcreate, hprepare⟩ := prepare_of_openListener_ok h
  have hprepared := refusal_of_prepare_ok (isFresh_freeNumber sockets) hprepare
  cases call with
  | create => exact hcreate
  | reuseAddress | nonBlocking | bind | listen | register => exact hprepared _ (by decide)

/-- An attempt that succeeds beside listeners leaves one more of them, on a machine that has the
address. It overlaps none of the others, and is where it was asked for if that says a port. -/
theorem openListener_of_ok (hlisteners : ∀ other ∈ sockets, other.IsListener) {socket : Socket}
    {after : Sockets} (h : host.openListener endpoint sockets = (.ok socket, after)) :
    ∃ actual, socket = .listener sockets.freeNumber actual ∧ after = sockets ++ [socket] ∧
      sockets.AreApartFrom actual ∧ host.has endpoint.ip = true ∧
      (endpoint.port ≠ 0 → actual = endpoint) := by
  have hfresh := isFresh_freeNumber sockets
  obtain ⟨-, hprepare⟩ := prepare_of_openListener_ok h
  -- One call after the other, as far as the last.
  obtain ⟨reusing, hcall, -, hrest⟩ := perform_of_prepare_ok hfresh hprepare
  obtain rfl := Except.ok.inj (perform_eq_ok_iff.mp hcall).2
  obtain ⟨nonBlocking, hcall, -, hrest⟩ := perform_of_prepare_ok hfresh hrest
  obtain rfl := Except.ok.inj (perform_eq_ok_iff.mp hcall).2
  obtain ⟨bound, hcall, -, hrest⟩ := perform_of_prepare_ok hfresh hrest
  obtain ⟨hfamily, hhas, actual, hactual, hadmits, rfl⟩ :=
    bind_eq_ok_iff.mp (perform_eq_ok_iff.mp hcall).2
  obtain ⟨listening, hcall, -, hrest⟩ := perform_of_prepare_ok hfresh hrest
  obtain ⟨-, rfl⟩ := listen_eq_ok_iff.mp (perform_eq_ok_iff.mp hcall).2
  obtain ⟨registered, hcall, -, hrest⟩ := perform_of_prepare_ok hfresh hrest
  obtain rfl := Except.ok.inj (perform_eq_ok_iff.mp hcall).2
  obtain ⟨hsocket, rfl⟩ := Prod.mk.inj hrest
  obtain rfl := Except.ok.inj hsocket
  refine ⟨actual, ?_, rfl, (admits_append_iff hlisteners hfresh actual).mp hadmits, hhas, ?_⟩
  · show (⟨sockets.freeNumber, endpoint.isV6, true, false, some actual, true⟩ : Socket) = _
    rw [← isV6_of_withFreePort? hactual]
    rfl
  · intro hport
    rw [withFreePort?_of_ne_zero hport] at hactual
    exact (Option.some.inj hactual).symm

end Opening

/-! ## Opening on a machine that refuses no call -/

section Willing

variable {host : Host} {endpoint : Endpoint} {sockets : Sockets}

/-- A new socket when it is about to be bound. -/
def Socket.unbound (number : Nat) (endpoint : Endpoint) : Socket :=
  ⟨number, endpoint.isV6, true, false, none, false⟩

/-- A machine that refuses no call carries every one of them out. -/
theorem perform_of_willing (hwilling : ∀ call, host.refusal call = none) (socket : Socket)
    (call : Call) :
    host.perform sockets endpoint socket call = host.carryOut sockets endpoint socket call := by
  rw [Host.perform, hwilling]

/-- Where no call is refused, opening a listener comes down to the calls from the bind on. -/
theorem openListener_from_bind (hwilling : ∀ call, host.refusal call = none) :
    host.openListener endpoint sockets =
      match host.prepare endpoint [.bind, .listen, .register]
        (.unbound sockets.freeNumber endpoint)
        (sockets ++ [.unbound sockets.freeNumber endpoint]) with
      | (.ok socket, after) => (.ok socket, after)
      | (.error fault, after) => (.error fault, after.close sockets.freeNumber) := by
  have hfresh := isFresh_freeNumber sockets
  have hcreate : host.perform sockets endpoint (.new sockets.freeNumber endpoint.isV6) .create =
      .ok (.new sockets.freeNumber endpoint.isV6) := perform_of_willing hwilling _ _
  have hprepare : host.prepare endpoint Call.preparing (.new sockets.freeNumber endpoint.isV6)
        (sockets ++ [.new sockets.freeNumber endpoint.isV6]) =
      host.prepare endpoint [.bind, .listen, .register] (.unbound sockets.freeNumber endpoint)
        (sockets ++ [.unbound sockets.freeNumber endpoint]) := by
    unfold Call.preparing
    rw [prepare_of_perform_ok hfresh (perform_of_willing hwilling _ .reuseAddress),
      prepare_of_perform_ok hfresh (perform_of_willing hwilling _ .nonBlocking)]
    rfl
  unfold Host.openListener
  simp only [hcreate, hprepare]
  rfl

/-- A bind that fails on such a machine leaves no socket behind. -/
theorem openListener_of_bind_error (hwilling : ∀ call, host.refusal call = none) {fault : Fault}
    (h : host.bind (sockets ++ [.unbound sockets.freeNumber endpoint])
      (.unbound sockets.freeNumber endpoint) endpoint = .error fault) :
    host.openListener endpoint sockets = (.error fault, sockets) := by
  have hcall : host.perform (sockets ++ [.unbound sockets.freeNumber endpoint]) endpoint
      (.unbound sockets.freeNumber endpoint) .bind = .error fault :=
    (perform_of_willing hwilling _ _).trans h
  rw [openListener_from_bind hwilling, prepare_of_perform_error hcall]
  show (_, Sockets.close (sockets ++ [_]) sockets.freeNumber) = _
  rw [close_append (isFresh_freeNumber sockets) rfl]

/-- A listener is opened at an endpoint that the machine has, if nothing there overlaps it. -/
theorem openListener_willing (hwilling : ∀ call, host.refusal call = none)
    (hlisteners : ∀ other ∈ sockets, other.IsListener) (hhas : host.has endpoint.ip = true)
    (hport : endpoint.port ≠ 0) (hapart : sockets.AreApartFrom endpoint) :
    host.openListener endpoint sockets =
      (.ok (.listener sockets.freeNumber endpoint),
        sockets ++ [.listener sockets.freeNumber endpoint]) := by
  have hfresh := isFresh_freeNumber sockets
  have hbind : host.bind (sockets ++ [.unbound sockets.freeNumber endpoint])
      (.unbound sockets.freeNumber endpoint) endpoint =
        .ok { Socket.unbound sockets.freeNumber endpoint with bound := some endpoint } :=
    bind_eq_ok_iff.mpr ⟨rfl, hhas, endpoint, withFreePort?_of_ne_zero hport,
      (admits_append_iff hlisteners hfresh endpoint).mpr hapart, rfl⟩
  have hbound := (perform_of_willing hwilling _ .bind).trans hbind
  let bound : Socket := { Socket.unbound sockets.freeNumber endpoint with bound := some endpoint }
  have hlisten : Sockets.listen (sockets ++ [bound]) bound =
      .ok (.listener sockets.freeNumber endpoint) :=
    listen_append hlisteners hfresh rfl hapart
  have hlistening : host.perform (sockets ++ [bound]) endpoint bound .listen =
      .ok (.listener sockets.freeNumber endpoint) :=
    (perform_of_willing hwilling _ .listen).trans hlisten
  rw [openListener_from_bind hwilling, prepare_of_perform_ok hfresh hbound,
    prepare_of_perform_ok hfresh hlistening,
    prepare_of_perform_ok hfresh (perform_of_willing hwilling _ .register)]
  rfl

/-- An endpoint that overlaps a listener is in use. -/
theorem openListener_of_overlap (hwilling : ∀ call, host.refusal call = none)
    (hlisteners : ∀ other ∈ sockets, other.IsListener) (hhas : host.has endpoint.ip = true)
    (hport : endpoint.port ≠ 0) (hoverlap : ¬ sockets.AreApartFrom endpoint) :
    host.openListener endpoint sockets = (.error .addressInUse, sockets) := by
  apply openListener_of_bind_error hwilling
  have hfresh : IsFresh (Socket.unbound sockets.freeNumber endpoint).number sockets :=
    isFresh_freeNumber sockets
  have hfamily : (Socket.unbound sockets.freeNumber endpoint).isV6 = endpoint.isV6 := rfl
  have hrefused := mt (admits_append_iff hlisteners hfresh endpoint).mp hoverlap
  unfold Machine.bind
  rw [if_neg (not_not_intro hfamily), if_pos hhas, withFreePort?_of_ne_zero hport]
  exact if_neg hrefused

/-- An address that the machine does not have is not available. -/
theorem openListener_of_not_has (hwilling : ∀ call, host.refusal call = none)
    (hhas : host.has endpoint.ip = false) :
    host.openListener endpoint sockets = (.error .addressNotAvailable, sockets) := by
  apply openListener_of_bind_error hwilling
  have hfamily : (Socket.unbound sockets.freeNumber endpoint).isV6 = endpoint.isV6 := rfl
  unfold Machine.bind
  rw [if_neg (not_not_intro hfamily), if_neg (by simp [hhas])]

end Willing

end PongFixture.Listener
