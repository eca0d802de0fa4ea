/-!
# Log events

What the fixtures report: a level, the part of the program that reports, a message and named
fields. Which of them are printed, and in what form, is decided elsewhere.
-/

set_option autoImplicit false

namespace PongFixture

/-- How much an event matters, the gravest first. -/
inductive Level
  | error
  | warn
  | info
  | debug
  | trace
  deriving DecidableEq

namespace Level

/-- The name of a level on a log line. -/
def name : Level → String
  | .error => "ERROR"
  | .warn => "WARN"
  | .info => "INFO"
  | .debug => "DEBUG"
  | .trace => "TRACE"

/-- How verbose a log must be to show the level, from one for errors to five for traces. -/
def verbosity : Level → Nat
  | .error => 1
  | .warn => 2
  | .info => 3
  | .debug => 4
  | .trace => 5

end Level

/-- The parts of the program that report events. -/
inductive Component
  | startup
  | listener
  | exchange
  | telnet
  | secure
  deriving DecidableEq

/-- The path by which a log filter selects a component. -/
def Component.path : Component → String
  | .startup => "pong_server"
  | .listener => "pong_server::server"
  | .exchange => "pong_server::protocols::pong"
  | .telnet => "pong_server::protocols::telnet::handler"
  | .secure => "pong_server::protocols::ssh::handler"

/-- One named value of an event. A field that holds free text is quoted on a log line. -/
structure Field where
  name : String
  value : String
  quoted : Bool
  deriving DecidableEq

namespace Field

/-- A field whose value is written as it stands. -/
def plain (name value : String) : Field := ⟨name, value, false⟩

/-- A field whose value is quoted on a log line. -/
def text (name value : String) : Field := ⟨name, value, true⟩

end Field

/-- Something the program reports. -/
structure Event where
  level : Level
  component : Component
  message : String
  fields : List Field
  deriving DecidableEq

end PongFixture
