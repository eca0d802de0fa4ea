import PongFixture.Log.Event

/-!
# What a listener reports

A listener announces its address once and every connection that it accepts.
-/

set_option autoImplicit false

namespace PongFixture.Listener

/-- The announcement of a listener that is ready. -/
def listening (protocol address : String) : Event :=
  ⟨.info, .listener, "Server listening",
    [.text "protocol" protocol, .plain "address" address]⟩

/-- The report of a connection. -/
def accepted (protocol peer : String) : Event :=
  ⟨.debug, .listener, "New connection", [.text "protocol" protocol, .plain "peer" peer]⟩

end PongFixture.Listener
