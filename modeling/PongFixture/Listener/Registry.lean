import PongFixture.Listener.Socket

/-!
# Open listeners

A registry holds listeners, each under a name, and remembers the port that was last bound under every
name. The sockets of the listeners are in the table of the machine, where the registry knows them by
their numbers. What is bound under a name that is in use takes the place of what was open there.
-/

set_option autoImplicit false

namespace PongFixture.Listener

open Address

/-- A listener that is held under a name, by the number of its socket. -/
structure Handle where
  name : String
  number : Nat
  deriving DecidableEq

/-- The sockets that are open, the listeners that are held, and the ports last bound under their
names. -/
structure Registry where
  sockets : Sockets
  held : List Handle
  lastPorts : List (String × UInt16)
  deriving DecidableEq

namespace Registry

/-- Nothing is open. -/
def empty : Registry := ⟨[], [], []⟩

/-- The port last bound under a name. -/
def lastPort? (registry : Registry) (name : String) : Option UInt16 :=
  (registry.lastPorts.find? fun entry => entry.1 == name).map (·.2)

/-- Whether something is open under a name. -/
def isOpen (registry : Registry) (name : String) : Bool :=
  registry.held.any fun handle => handle.name == name

/-- Closes what is open under a name. -/
def close (registry : Registry) (name : String) : Registry :=
  { registry with
    sockets := (registry.held.filter fun handle => handle.name == name).foldl
      (fun sockets handle => sockets.close handle.number) registry.sockets
    held := registry.held.filter fun handle => !(handle.name == name) }

/-- Holds a socket under a name, in place of what was open there. -/
def hold (registry : Registry) (name : String) (socket : Socket) : Registry :=
  { registry.close name with
    held := (registry.close name).held ++ [⟨name, socket.number⟩]
    lastPorts := (name, socket.endpoint.port) :: registry.lastPorts }

end Registry

/-- A request to a registry: to bind an endpoint under a name, possibly on the port last bound
under another, or to drop what is open under a name. -/
inductive Step
  | bind (name : String) (endpoint : Endpoint) (portOf : Option String)
  | drop (name : String)
  deriving DecidableEq

/-- The answer to a request: the endpoint bound, with the port that was asked for, a fault, or
whether something was dropped. -/
inductive StepAnswer
  | bound (endpoint : Endpoint) (asked : UInt16)
  | failed (fault : Fault)
  | dropped (wasOpen : Bool)
  deriving DecidableEq

namespace Registry

/-- The endpoint that a bind asks for. -/
def requested (registry : Registry) (endpoint : Endpoint) (portOf : Option String) : Endpoint :=
  match portOf.bind registry.lastPort? with
  | some port => endpoint.withPort port
  | none => endpoint

/-- Performs one request on a machine at one time. -/
def perform (host : Host) (registry : Registry) : Step → StepAnswer × Registry
  | .bind name endpoint portOf =>
    let asked := registry.requested endpoint portOf
    match host.openListener asked registry.sockets with
    | (.error fault, sockets) => (.failed fault, { registry with sockets })
    | (.ok socket, sockets) =>
      (.bound socket.endpoint asked.port, { registry with sockets }.hold name socket)
  | .drop name => (.dropped (registry.isOpen name), registry.close name)

/-- Performs one request. -/
def step (machine : Machine) (registry : Registry) (request : Step) : StepAnswer × Registry :=
  registry.perform machine.willing request

/-- Performs requests in their order: the answers, and the registry afterwards. -/
def steps (machine : Machine) (registry : Registry) : List Step → List StepAnswer × Registry
  | [] => ([], registry)
  | request :: requests =>
    let (answer, next) := registry.step machine request
    let (answers, last) := steps machine next requests
    (answer :: answers, last)

end Registry

end PongFixture.Listener
