import Echolet.Lib.SortedMap
import Echolet.Lib.Runs
import Echolet.Lib.Program
import Echolet.Lib.Text
import Echolet.Lib.Paging
import Echolet.Lib.Sha256
import Echolet.Lib.Utf8
import Echolet.Lib.Number
import Echolet.Lib.Document
import Echolet.Relay.Ordering
import Echolet.Relay.Delivery
import Echolet.Relay.Quota
import Echolet.Relay.Isolation
import Echolet.Relay.Claims
import Echolet.Relay.Backfill
import Echolet.Relay.Resolution
import Echolet.Relay.DeviceCap
import Echolet.Relay.Authority
import Echolet.Client.Import
import Echolet.Client.Batch
import Echolet.Client.Inbound
import Echolet.Client.Outbound
import Echolet.Client.Pins
import Echolet.Client.MailboxAuth
import Echolet.Client.RequestBinding
import Echolet.Client.Ratchet
import Echolet.Tui.Attribution
import Echolet.Tui.TrustGate
import Echolet.Tui.PaneFit
import Echolet.Tui.ComposeRow
import Echolet.Relay.RateLimit
import Echolet.Relay.StorageQuota
import Echolet.Relay.CleanupService
import Echolet.Relay.CertificateReloader
import Echolet.Relay.Selection
import Echolet.Relay.Refusals
import Echolet.Lib.GoText
import Echolet.Relay.Conflicts
import Echolet.Relay.Tokens
import Echolet.Relay.Retention
import Echolet.Client.AckChunks
import Echolet.Client.Verdicts
import Echolet.Lib.JsText
import Echolet.Client.Sizes
import Echolet.Web.CliBridge
import Echolet.Web.Chunks
import Echolet.Lib.Path
import Echolet.Operator.Station
import Echolet.Lib.ParseArgs
import Echolet.Tui.Argv
import Echolet.Client.Initialize
import Echolet.Client.EncryptedStore
import Echolet.Client.History
import Echolet.Relay.CanonicalJson
import Echolet.Tui.Panes
import Echolet.Tui.Frame
import Echolet.Client.OneTimePreKeys
import Echolet.Client.Custody
import Echolet.Client.BundleTexts
import Echolet.Tui.FrameContract
import Echolet.Client.BundleExchange
import Echolet.Client.BundleExport
