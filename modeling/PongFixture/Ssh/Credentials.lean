import PongFixture.Text.Quoted

/-!
# Who may log in, and what may be opened

The two decisions that the SSH fixture makes itself. A login succeeds for one pair of user name and
password, compared character for character. Of the channels that a client may ask for, sessions
are opened and all others are refused as administratively prohibited.
-/

set_option autoImplicit false

namespace PongFixture.Ssh

/-- The pair that the fixture accepts. -/
structure Credentials where
  username : String
  password : String
  deriving DecidableEq

/-- The outcome of a password check. -/
inductive Verdict
  | successful
  | failed
  deriving DecidableEq

/-- The name of an outcome. -/
def Verdict.name : Verdict → String
  | .successful => "Successful"
  | .failed => "Failed"

namespace Credentials

/-- Judges a submitted pair. -/
def judge (credentials : Credentials) (username password : String) : Verdict :=
  if username = credentials.username ∧ password = credentials.password then .successful
  else .failed

/-- What a log or a debugger may show of the credentials: the user name, never the password. -/
def describe (credentials : Credentials) : String :=
  "Credentials \x7b username: " ++ Quoted.ofString credentials.username ++
    ", password: \"<redacted>\" \x7d"

/-- A pair is accepted exactly when both of its texts are the configured ones. -/
theorem judge_eq_successful_iff (credentials : Credentials) (username password : String) :
    credentials.judge username password = .successful ↔
      username = credentials.username ∧ password = credentials.password := by
  unfold judge
  split <;> simp_all

/-- The description does not depend on the password. -/
theorem describe_eq_of_username_eq {a b : Credentials} (h : a.username = b.username) :
    a.describe = b.describe := by
  unfold describe
  rw [h]

end Credentials

/-- The ways to authenticate that the fixture names to a client. -/
inductive Method
  | password
  deriving DecidableEq

/-- The name of a way to authenticate. -/
def Method.name : Method → String
  | .password => "password"

/-- The ways with which an unauthenticated client may go on. -/
def methods : List Method := [.password]

/-- The kinds of channel that the policy decides on. -/
inductive ChannelKind
  | session
  | x11
  | directTcpip
  deriving DecidableEq

namespace ChannelKind

/-- The name of a kind in the protocol. -/
def name : ChannelKind → String
  | .session => "session"
  | .x11 => "x11"
  | .directTcpip => "direct-tcpip"

/-- All kinds. -/
def all : List ChannelKind := [.session, .x11, .directTcpip]

/-- The kind of a name. -/
def ofName? (name : String) : Option ChannelKind := all.find? fun kind => kind.name == name

end ChannelKind

/-- Why a channel is not opened. -/
inductive Refusal
  | administrativelyProhibited
  deriving DecidableEq

namespace Refusal

/-- The name of a refusal. -/
def name : Refusal → String
  | .administrativelyProhibited => "AdministrativelyProhibited"

/-- The number of a refusal in the protocol. -/
def code : Refusal → Nat
  | .administrativelyProhibited => 1

end Refusal

/-- The outcome of a request to open a channel. -/
inductive Admission
  | granted
  | refused (reason : Refusal)
  deriving DecidableEq

/-- Decides on a request to open a channel: sessions only. -/
def admission : ChannelKind → Admission
  | .session => .granted
  | .x11 => .refused .administrativelyProhibited
  | .directTcpip => .refused .administrativelyProhibited

/-- Sessions are opened, and nothing else is. -/
theorem admission_eq_granted_iff (kind : ChannelKind) : admission kind = .granted ↔ kind = .session := by
  cases kind <;> simp [admission]

end PongFixture.Ssh
