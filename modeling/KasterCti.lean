import KasterCti.Library.JsText
import KasterCti.Library.Trace
import KasterCti.Calls.CallLeg
import KasterCti.Calls.TransferDetector
import KasterCti.Calls.SessionEngine
import KasterCti.Calls.StatusOrder
import KasterCti.Calls.Terminal
import KasterCti.Calls.Accounting
import KasterCti.Calls.Columns
import KasterCti.Calls.TwoPasses
import KasterCti.Calls.Replay
import KasterCti.Resilience.DurableSpool
import KasterCti.Resilience.LivePath
import KasterCti.Resilience.Recovery
import KasterCti.Library.Bfs
import KasterCti.Library.Lines
import KasterCti.Renderers.Utils
import KasterCti.ArsFlow.FlowGraph
import KasterCti.ArsFlow.NodeConfig
import KasterCti.ArsFlow.Renderer
import KasterCti.ArsFlow.Injection
import KasterCti.Library.Dialplan
import KasterCti.Library.ExtenPattern
import KasterCti.Library.Machine
import KasterCti.ArsFlow.Semantics
import KasterCti.ArsFlow.Validator
import KasterCti.Library.DialplanCode
import KasterCti.ArsFlow.Code
import KasterCti.ArsFlow.ReadBack
import KasterCti.Ami.Parser
import KasterCti.Library.Utf8
import KasterCti.Ami.Connection
import KasterCti.Ami.Framing
import KasterCti.Ami.PendingActions
import KasterCti.Ami.Actions
import KasterCti.Calls.Fingerprint
import KasterCti.Calls.ExactlyOnce
import KasterCti.Library.Json
import KasterCti.Resilience.Completion
import KasterCti.Resilience.Drain
import KasterCti.Resilience.LocalSpool
import KasterCti.Calls.StaleSweep
import KasterCti.Library.PosixPath
import KasterCti.Recordings.Files
import KasterCti.Recordings.Finalizer
import KasterCti.Recordings.Orphans
import KasterCti.Auth.RefreshTokens
import KasterCti.Auth.PlatformAdmins
import KasterCti.OptOut.Blocklist
import KasterCti.ShareRules.QueueMembers
import KasterCti.Calls.TransferBooks
import KasterCti.Calls.AgentOffer
import KasterCti.Calls.OfferMaps
import KasterCti.Calls.OfferProtocol
import KasterCti.Calls.OfferNodes
import KasterCti.Calls.OfferTenants
import KasterCti.Library.DialplanText
import KasterCti.Renderers.Dialplan
import KasterCti.Library.TimeSpec
import KasterCti.Renderers.AgentDialplan
import KasterCti.Renderers.Conditions
import KasterCti.Renderers.HandsetLock
import KasterCti.Renderers.HolidayRules
import KasterCti.Renderers.OutboundCalls
import KasterCti.Renderers.TimeWindows
import KasterCti.Renderers.PhoneCalls
import KasterCti.ArsFlow.Places
import KasterCti.ArsFlow.InlineNodes
import KasterCti.ArsFlow.CollectNodes
import KasterCti.ArsFlow.MenuNodes
import KasterCti.ArsFlow.Compiled
import KasterCti.ArsFlow.CollectedDigits
import KasterCti.ArsLookup.CircuitBreaker
import KasterCti.ArsLookup.LookupRuns
import KasterCti.CallAnalysis.Sweeper
import KasterCti.Library.JsValue
import KasterCti.Outbox.Publisher
import KasterCti.Resilience.ConfigSnapshot
import KasterCti.Resilience.ConfigVersions
import KasterCti.ArsLookup.SafeTarget
import KasterCti.OutboundRules.Sanitizer
import KasterCti.Realtime.AgentPresence
import KasterCti.Trends.SnapshotRetention
import KasterCti.OutboundRules.Preview
import KasterCti.Renderers.InternalCalls
import KasterCti.Calls.AgentState
import KasterCti.Calls.ClickToCall
import KasterCti.Common.FeatureEntitlement
import KasterCti.Customers.CustomerPhones
import KasterCti.Customers.SearchByPhone
import KasterCti.Library.Aead
import KasterCti.Library.Moves
import KasterCti.PacketCapture.CaptureFiles
import KasterCti.PacketCapture.CaptureLifecycle
import KasterCti.Recordings.Encryption
import KasterCti.SipSecurity.AbuseBlocks
import KasterCti.ArsFlow.GraphChecks
import KasterCti.ArsFlow.LookupPaths
import KasterCti.ArsFlow.StorageOrder
import KasterCti.Desktop.CallPairing
import KasterCti.Desktop.SoftphoneCalls
import KasterCti.Desktop.TokenRefresh
import KasterCti.Library.ConfText
import KasterCti.Renderers.ConfFiles
import KasterCti.Renderers.ConfReadBack
import KasterCti.Renderers.PendingChanges
import KasterCti.CallAnalysis.WavChannels
import KasterCti.Library.JsNumber
import KasterCti.Library.Peaks
import KasterCti.Library.Utf16
import KasterCti.Recordings.RangeRequests
import KasterCti.Smdr.CallReport
import KasterCti.Trends.RollupSteps
import KasterCti.Trends.TrendSeries
import KasterCti.ArsLookup.LookupOutcome
import KasterCti.Renderers.Blocklist
import KasterCti.Renderers.PromptMusic
import KasterCti.Library.Backoff
import KasterCti.Recordings.RetrySpacing
import KasterCti.CallAnalysis.PiiLeak
import KasterCti.ArsLookup.LookupAgi
import KasterCti.CallAnalysis.Reconcile
import KasterCti.Desktop.AppVersion
import KasterCti.Desktop.UpdateAddress
import KasterCti.Desktop.UpdateDownload
import KasterCti.Library.Slots
import KasterCti.LoadGen.CallRate
import KasterCti.Trends.SentimentSeries
import KasterCti.Renderers.MusiconholdFile
