import PongFixture.Ssh.Credentials
import PongFixture.Digest.Sha256
import PongFixture.Text.Base64

/-!
# What all SSH connections share

The accepted pair, the time to wait for a channel, and what the transport needs: the host key, the
ways to authenticate, and how long it holds back the answer to a rejected attempt. All of it is
fixed when the program starts, and no connection changes it.

A client knows the host by the fingerprint of its key: the digest of the key in the form in which
it travels, in base 64.
-/

set_option autoImplicit false

namespace PongFixture.Ssh

/-- The name of the protocol in the log. -/
def protocolName : String := "ssh"

/-- The public part of a host key of the kind Ed25519. -/
structure HostKey where
  octets : Bytes
  deriving DecidableEq

namespace HostKey

/-- A number as four octets, the highest first. -/
def lengthOctets (n : Nat) : Bytes :=
  [UInt8.ofNat (n / 16777216), UInt8.ofNat (n / 65536), UInt8.ofNat (n / 256), UInt8.ofNat n]

/-- Octets with their number before them. -/
def counted (bytes : Bytes) : Bytes := lengthOctets bytes.length ++ bytes

/-- A key in the form in which it travels. -/
def wire (key : HostKey) : Bytes := counted (Utf8.ofString "ssh-ed25519") ++ counted key.octets

/-- The fingerprint of a key. -/
def fingerprint (key : HostKey) : String :=
  "SHA256:" ++ String.ofList (Base64.encode (Sha256.digest key.wire))

end HostKey

/-- How long the answer to a rejected attempt is held back, in milliseconds. -/
def rejectionDelay : Nat := 1000

/-- How long the answer is held back when the first attempt is one without a password. -/
def firstRejectionDelay : Nat := 0

/-- What all connections share. The timeout is in seconds, the delays are in milliseconds. -/
structure Context where
  credentials : Credentials
  channelOpenTimeout : Nat
  hostKeys : List HostKey
  methods : List Method
  rejectionDelay : Nat
  firstRejectionDelay : Nat
  deriving DecidableEq

namespace Context

/-- The context of a server with a host key. -/
def withHostKey (credentials : Credentials) (channelOpenTimeout : Nat) (key : HostKey) : Context :=
  { credentials
    channelOpenTimeout
    hostKeys := [key]
    methods := Ssh.methods
    rejectionDelay := Ssh.rejectionDelay
    firstRejectionDelay := Ssh.firstRejectionDelay }

/-- The fingerprint of the host key, or nothing without one. -/
def fingerprint (context : Context) : String :=
  match context.hostKeys with
  | [] => ""
  | key :: _ => key.fingerprint

/-- Without a key there is no fingerprint. -/
@[simp] theorem fingerprint_of_no_keys (context : Context) :
    ({ context with hostKeys := [] } : Context).fingerprint = "" := rfl

end Context

end PongFixture.Ssh
