import ShuvTunnel.Lib.Coop
import ShuvTunnel.Bridge
import ShuvTunnel.Workflow
import ShuvTunnel.Sockets
import ShuvTunnel.Segments
import ShuvTunnel.Fencing
import ShuvTunnel.Routes
import ShuvTunnel.Api
import ShuvTunnel.Connect
import ShuvTunnel.Retry
import ShuvTunnel.Snapshots
import ShuvTunnel.Renewal
import ShuvTunnel.Deletion
import ShuvTunnel.Readiness
import ShuvTunnel.Clients
import ShuvTunnel.Provision
import ShuvTunnel.Writes
import ShuvTunnel.Issuance
import ShuvTunnel.Acknowledged
import ShuvTunnel.Lib.Wire
import ShuvTunnel.ClientHello
import ShuvTunnel.Inspection
import ShuvTunnel.Completeness
import ShuvTunnel.Names
import ShuvTunnel.Resolution
import ShuvTunnel.Channels
import ShuvTunnel.Moves
import ShuvTunnel.Isolation
import ShuvTunnel.Uploads
import ShuvTunnel.Reset
import ShuvTunnel.Ghosts
import ShuvTunnel.Lib.Binary64
import ShuvTunnel.ServerMessages
import ShuvTunnel.Understanding
import ShuvTunnel.Frames
import ShuvTunnel.Sessions
import ShuvTunnel.RustSession
import ShuvTunnel.TypeScriptSession
import ShuvTunnel.Turns
import ShuvTunnel.Publics
import ShuvTunnel.Network
import ShuvTunnel.Owners
import ShuvTunnel.UploadFidelity
import ShuvTunnel.DownloadFidelity
import ShuvTunnel.Lib.IsoDate
import ShuvTunnel.Lib.JsonText
import ShuvTunnel.Files
import ShuvTunnel.Storage
import ShuvTunnel.CrashCuts
import ShuvTunnel.Resumption
import ShuvTunnel.TornWrites
import ShuvTunnel.Disk
import ShuvTunnel.Memory
import ShuvTunnel.Layout
import ShuvTunnel.Profiles
import ShuvTunnel.Bounds
import ShuvTunnel.Reports
import ShuvTunnel.Tracking
import ShuvTunnel.Completions
import ShuvTunnel.Accounts
import ShuvTunnel.Targets
import ShuvTunnel.Answers
import ShuvTunnel.Grammars
import ShuvTunnel.Removal
import ShuvTunnel.HotSwap
import ShuvTunnel.Daemon
import ShuvTunnel.Config
import ShuvTunnel.ConfigEdits
import ShuvTunnel.RouteEdits
import ShuvTunnel.Lib.Expansion
import ShuvTunnel.ServiceUnit
import ShuvTunnel.Allocation
import ShuvTunnel.Backpressure
import ShuvTunnel.PemCodecs
import ShuvTunnel.ChallengeRecords
import ShuvTunnel.Closing
import ShuvTunnel.RouteClaims
import ShuvTunnel.Serving
import ShuvTunnel.Relaying
import ShuvTunnel.SigningRequest
import ShuvTunnel.Lib.Der
import ShuvTunnel.Evidence
import ShuvTunnel.Returns
import ShuvTunnel.Handshake
import ShuvTunnel.Authority
import ShuvTunnel.Attempts
import ShuvTunnel.Agreement
import ShuvTunnel.Reconnect
import ShuvTunnel.Answering
import ShuvTunnel.Lib.JsonPrint
import ShuvTunnel.MessageTexts
import ShuvTunnel.HttpApi
import ShuvTunnel.Control
import ShuvTunnel.ControlSocket
import ShuvTunnel.Requests
import ShuvTunnel.Restart
