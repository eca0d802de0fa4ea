import PongFixture.Decimal.Shortest
import PongFixture.Options.Spelling
import PongFixture.Settings.Choice
import PongFixture.Main
import PongFixture.Proofs.Exchange.Rounds
import PongFixture.Proofs.Exchange.FirstFailure
import PongFixture.Proofs.Exchange.Resumption
import PongFixture.Proofs.Ssh.Reports
import PongFixture.Proofs.Ssh.Clock
import PongFixture.Proofs.Ssh.Life
import PongFixture.Proofs.Ssh.ChannelDeadline
import PongFixture.Proofs.Exchange.Outline
import PongFixture.Proofs.Exchange.Pieces
import PongFixture.Proofs.Ssh.Handover
import PongFixture.Proofs.Telnet.Books
import PongFixture.Proofs.Ssh.Silence
import PongFixture.Proofs.Ssh.Account
import PongFixture.Proofs.Ssh.Channels
import PongFixture.Proofs.Telnet.Isolation
import PongFixture.Proofs.Ssh.Isolation
import PongFixture.Proofs.Ssh.Secrecy
import PongFixture.Proofs.Ssh.Login
import PongFixture.Proofs.Exchange.Delivery
import PongFixture.Proofs.Listener.Opening
import PongFixture.Proofs.Listener.History
import PongFixture.Proofs.Settings.Reading
import PongFixture.Proofs.Options.Accepted
import PongFixture.Proofs.Settings.Layers
import PongFixture.Proofs.Startup.Course
import PongFixture.Proofs.Text.Utf8
import PongFixture.Proofs.Telnet.Reports
import PongFixture.Proofs.Text.Numeral
import PongFixture.Proofs.Address.Canonical
import PongFixture.Proofs.Options.Spelled
import PongFixture.Proofs.Settings.Written
import PongFixture.Proofs.Exchange.Polls
import PongFixture.Proofs.Exchange.Termination
import PongFixture.Proofs.Startup.LogLines
import PongFixture.Proofs.Toml.Bodies
import PongFixture.Proofs.Toml.Replacement
import PongFixture.Proofs.Toml.Edit
import PongFixture.Proofs.Toml.Rebuilding
import PongFixture.Proofs.Toml.Following
import PongFixture.Proofs.Toml.Replaced
import PongFixture.Proofs.Settings.Disclosure
