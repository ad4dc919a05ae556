import PlexPaper.TaskProgram
import PlexPaper.TaskPool
import PlexPaper.TaskLedger
import PlexPaper.LastDone
import PlexPaper.TaskCompletion
import PlexPaper.Semaphore
import PlexPaper.Config
import PlexPaper.Server
import PlexPaper.Lifecycle
import PlexPaper.LifecyclePrograms
import PlexPaper.FreshReadings
import PlexPaper.RconStops
import PlexPaper.RconCooldown
import PlexPaper.TransitionGraph
import PlexPaper.CommandDuty
import PlexPaper.ProcessOwners
import PlexPaper.NoDeadlock
import PlexPaper.SingleProcess
import PlexPaper.StoppingExit
import PlexPaper.CleanupIsolation
import PlexPaper.KillDeadline
import PlexPaper.PublishedState
import PlexPaper.StateNotices
import PlexPaper.CrashVerdict
import PlexPaper.WakeLedger
import PlexPaper.Quitting
import PlexPaper.Waiting
import PlexPaper.HeldClient
import PlexPaper.AnsweredWait
import PlexPaper.IdleSleep
import PlexPaper.SoloRuns
import PlexPaper.StopReports
import PlexPaper.FailedSpawn
import PlexPaper.PingFallback
import PlexPaper.Leb128
import PlexPaper.Client
import PlexPaper.PacketCodec
import PlexPaper.Framing
import PlexPaper.VarIntPrefix
import PlexPaper.Forge
import PlexPaper.Probe
import PlexPaper.ProbePublication
import PlexPaper.Access
import PlexPaper.Status
import PlexPaper.WakeGate
import PlexPaper.StatusAnswers
import PlexPaper.ByteStream
import PlexPaper.PacketSafety
import PlexPaper.Rounds
import PlexPaper.BackendPolls
import PlexPaper.Proxy
import PlexPaper.RelayDelivery
import PlexPaper.StatusPoll
import PlexPaper.LobbyPackets
import PlexPaper.Lobby
import PlexPaper.LobbyPrograms
import PlexPaper.LobbyHandover
import PlexPaper.LobbyOutput
import PlexPaper.LobbySession
import PlexPaper.Join
import PlexPaper.JoinOutcome
import PlexPaper.Gateway
import PlexPaper.VerbatimRelay
import PlexPaper.LoginCompression
import PlexPaper.ForgeReplay
import PlexPaper.PluginAnswers
import PlexPaper.Interference
import PlexPaper.FileWatcher
import PlexPaper.FollowedFiles
import PlexPaper.WireIds
import PlexPaper.LoginHandshake
import PlexPaper.WhitelistReloads
import PlexPaper.ListProvenance
import PlexPaper.WatchedGateway
import PlexPaper.KeyedLines
import PlexPaper.PropertyLines
import PlexPaper.PropertyRewrite
import PlexPaper.PropertyLaws
import PlexPaper.ServerCommand
import PlexPaper.StartUp
import PlexPaper.Dimension
import PlexPaper.PhaseDeadline
