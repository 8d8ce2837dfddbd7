import Nodogsplash.Foundation.Execution
import Nodogsplash.Foundation.KeyedList
import Nodogsplash.Foundation.RuleChain
import Nodogsplash.Foundation.LockProgram
import Nodogsplash.Foundation.Overlay
import Nodogsplash.Config
import Nodogsplash.Iptables
import Nodogsplash.TrafficControl
import Nodogsplash.Firewall
import Nodogsplash.Initialization
import Nodogsplash.ClientList
import Nodogsplash.Gateway
import Nodogsplash.StateFile
import Nodogsplash.Http
import Nodogsplash.Daemon
import Nodogsplash.Transition
import Nodogsplash.Import
import Nodogsplash.Frame
import Nodogsplash.Start
import Nodogsplash.AuthenticationRules
import Nodogsplash.ClientIds
import Nodogsplash.DocumentImport
import Nodogsplash.StateFileRoundTrip
import Nodogsplash.RequestAuthorization
import Nodogsplash.Threads
import Nodogsplash.SessionTimes
import Nodogsplash.EtherAddress
import Nodogsplash.BlockedSessions
import Nodogsplash.FilterChains
import Nodogsplash.MacRules
import Nodogsplash.BlockedPackets
import Nodogsplash.Rulesets
import Nodogsplash.Locks
import Nodogsplash.ClientListRuns
import Nodogsplash.LifeCycle
import Nodogsplash.ClientClasses
import Nodogsplash.MacLists
import Nodogsplash.ByteCounters
import Nodogsplash.CountedSessions
import Nodogsplash.ImportedCounters
import Nodogsplash.TrafficObjects
import Nodogsplash.Teardown
import Nodogsplash.ControlThread
import Nodogsplash.ControlProtocol
import Nodogsplash.MacCommands
import Nodogsplash.AuthenticationFailures
import Nodogsplash.BinauthReplies
import Nodogsplash.NewClients
import Nodogsplash.RefreshPass
import Nodogsplash.PassBlocks
import Nodogsplash.Foundation.LexicalPath
import Nodogsplash.PathSafety
import Nodogsplash.Foundation.Rearrangement
import Nodogsplash.ConfigRead
import Nodogsplash.ConfigOrder
import Nodogsplash.Foundation.QueryText
import Nodogsplash.OriginalUrl
import Nodogsplash.SimplifiedPaths
import Nodogsplash.CaptiveRedirect
import Nodogsplash.RequestReading
import Nodogsplash.MentionRemoval
import Nodogsplash.UrlBuffer
import Nodogsplash.Foundation.Buffers
import Nodogsplash.EncodedBuffers
import Nodogsplash.Foundation.Substitution
import Nodogsplash.Template
import Nodogsplash.TemplatePages
import Nodogsplash.DeauthCommand
import Nodogsplash.AssignedLimits
import Nodogsplash.ShellCommands
import Nodogsplash.QueryBuffer
import Nodogsplash.AcceptedConfig
import Nodogsplash.IntegerRanges
import Nodogsplash.MaxClients
import Nodogsplash.NatTargets
import Nodogsplash.Foundation.Words
import Nodogsplash.RuleWords
import Nodogsplash.RuleCommands
import Nodogsplash.Foundation.StoredStrings
import Nodogsplash.ConfigBuffer
import Nodogsplash.Foundation.JsonText
import Nodogsplash.NdsctlJson
import Nodogsplash.Foundation.LinkedLists
import Nodogsplash.ClientMemory
import Nodogsplash.LinkedPasses
import Nodogsplash.AllowedAddresses
import Nodogsplash.HookedChains
import Nodogsplash.AccessControl
import Nodogsplash.Provenance
import Nodogsplash.Foundation.Scanning
import Nodogsplash.CounterListing
import Nodogsplash.NeighbourTable
import Nodogsplash.Shutdown
import Nodogsplash.Restart
