import Ntag424.Lib.Bytes
import Ntag424.Lib.Outcome
import Ntag424.Lib.BlockMode
import Ntag424.Lib.Numerals
import Ntag424.Lib.Hex
import Ntag424.Types
import Ntag424.FileSettings.Sdm
import Ntag424.FileSettings.Layout
import Ntag424.Crypto
import Ntag424.SdmVerify.Fields
import Ntag424.SdmVerify.HexLoops
import Ntag424.SdmVerify.Verifier
import Ntag424.Lib.Aes
import Ntag424.Standard
import Ntag424.SdmVerify.Authenticity
import Ntag424.SdmVerify.Presence
import Ntag424.SdmVerify.Readout
import Ntag424.SdmVerify.Completeness
import Ntag424.KeyDiversification
import Ntag424.Lib.Prog
import Ntag424.HighLevel.Verification
import Ntag424.HighLevel.Replay
import Ntag424.Lib.Utf8
import Ntag424.SdmUrl.Scanner
import Ntag424.SdmUrl.Config
import Ntag424.SdmUrl.ScannerSound
import Ntag424.SdmUrl.Compile
import Ntag424.SdmVerify.Shift
import Ntag424.HighLevel.Provision
import Ntag424.SdmVerify.ReadoutText
import Ntag424.HighLevel.EndToEnd
import Ntag424.FileSettings.Codec
import Ntag424.FileSettings.Wire
import Ntag424.FileSettings.RoundTrip
import Ntag424.Lib.Script
import Ntag424.Lib.May
import Ntag424.Lib.Asks
import Ntag424.Lib.Raises
import Ntag424.Session.Channel
import Ntag424.Session.Commands
import Ntag424.Session.FileData
import Ntag424.Session.Authenticate
import Ntag424.Session.Session
import Ntag424.Session.Operations
import Ntag424.Session.Freshness
import Ntag424.Tag.App
import Ntag424.Tag.Session
import Ntag424.Tag.Card
import Ntag424.Lockstep.Channel
import Ntag424.Lockstep.Handshake
import Ntag424.Lockstep.Commands
import Ntag424.Lockstep.FileData
import Ntag424.Lockstep.Run
import Ntag424.Lockstep.Wraparound
import Ntag424.FileSettings.Rewrite
import Ntag424.HighLevel.Sequence
import Ntag424.Session.Transcript
import Ntag424.Lockstep.Agreement
import Ntag424.CapabilityContainer
import Ntag424.Session.FactoryState
import Ntag424.Session.Selection
import Ntag424.Lib.Chunks
import Ntag424.SdmUrl.Totality
import Ntag424.Session.Rejection
import Ntag424.Session.Headers
import Ntag424.Session.Buffers
import Ntag424.Lockstep.Reads
import Ntag424.Lockstep.Writes
import Ntag424.Lib.FirstMatch
import Ntag424.SdmUrl.UriPrefix
import Ntag424.Lib.InPlace
import Ntag424.Session.InPlace
import Ntag424.Session.Lricb
import Ntag424.Session.Padding
import Ntag424.SdmVerify.Offset
import Ntag424.SdmVerify.Safety
import Ntag424.HighLevel.UrlPositions
import Ntag424.Session.CounterAdvance
import Ntag424.Session.Overflow
import Ntag424.Session.FileReads
import Ntag424.Tag.Delivered
import Ntag424.Lockstep.Delivered
import Ntag424.Session.FactoryContents
import Ntag424.HighLevel.Reset
import Ntag424.Tag.Administered
import Ntag424.Lockstep.Administered
import Ntag424.HighLevel.ResetRetry
import Ntag424.Lib.Requests
import Ntag424.Session.Requests
import Ntag424.SdmUrl.CompilerTotality
import Ntag424.SdmUrl.Rejection
import Ntag424.CapabilityContainer.RoundTrip
import Ntag424.KeyDiversification.Cmac
import Ntag424.Session.Alignment
import Ntag424.Session.SettingsBuffers
import Ntag424.Session.Configuration
import Ntag424.Tag.Profile
import Ntag424.Lockstep.Profile
import Ntag424.Lockstep.ProfileData
import Ntag424.Tag.Powered
import Ntag424.HighLevel.Provisioning
import Ntag424.HighLevel.Instructions
import Ntag424.HighLevel.DocumentedTag
import Ntag424.HighLevel.ProvisionedProfile
import Ntag424.HighLevel.ProvisioningRun
import Ntag424.HighLevel.ResetRun
import Ntag424.HighLevel.Lifecycle
import Ntag424.HighLevel.ProvisionReset
import Ntag424.HighLevel.Taps
import Ntag424.HighLevel.FactoryCheck
import Ntag424.HighLevel.ProvisioningSafety
import Ntag424.HighLevel.ProvisionRetry
import Ntag424.HighLevel.SessionMachine
import Ntag424.Lib.Within
import Ntag424.SdmUrl.ConstPlan
import Ntag424.Tag.DeliveredProfile
import Ntag424.Lib.Stops
