import Riaps.Foundation.Runs
import Riaps.Foundation.Dict
import Riaps.Foundation.Histories
import Riaps.Foundation.PyText
import Riaps.Coordination.Messages
import Riaps.Coordination.GroupThread
import Riaps.Coordination.PollSteps
import Riaps.Coordination.Elections
import Riaps.Coordination.Votes
import Riaps.Coordination.Leadership
import Riaps.Coordination.Conflicts
import Riaps.Coordination.Replies
import Riaps.Coordination.Deadlines
import Riaps.Coordination.Notices
import Riaps.Coordination.Polling
import Riaps.Coordination.Ballots
import Riaps.Foundation.Broadcast
import Riaps.Coordination.Safety
import Riaps.Component.Timer
import Riaps.Component.Fsm
import Riaps.Component.FsmTables
import Riaps.Actor.Params
import Riaps.Foundation.Tombstones
import Riaps.Discovery.DhtDbase
import Riaps.Discovery.Fetching
import Riaps.Discovery.DiscoService
import Riaps.Discovery.Clients
import Riaps.Discovery.Providers
import Riaps.Discovery.Requests
import Riaps.Discovery.Registrations
import Riaps.Discovery.Keys
import Riaps.Discovery.Republishing
import Riaps.Discovery.Tables
import Riaps.Actor.DiscoClient
import Riaps.Actor.Reinstate
import Riaps.Actor.GroupNet
import Riaps.Actor.GroupDiscovery
import Riaps.Discovery.Decoding
import Riaps.Discovery.Provenance
import Riaps.Actor.Connecting
import Riaps.Actor.Connections
import Riaps.Deployment.AppDbase
import Riaps.Deployment.ProcessManager
import Riaps.Deployment.DeploymentManager
import Riaps.Deployment.Leaks
import Riaps.Deployment.Records
import Riaps.Deployment.Monitors
import Riaps.Deployment.Halting
import Riaps.Deployment.Recovery
import Riaps.Component.Group
import Riaps.Component.Nesting
import Riaps.Component.Delivery
import Riaps.Foundation.Ranks
import Riaps.Component.Scheduler
import Riaps.Component.Dispatch
import Riaps.Coordination.Winning
import Riaps.Coordination.Mail
import Riaps.Coordination.LeaderMail
import Riaps.Control.Controller
import Riaps.Control.LaunchList
import Riaps.Control.Launching
import Riaps.Control.Sessions
import Riaps.Deployment.PeerGroups
import Riaps.Deployment.ResourceManager
import Riaps.Deployment.Limits
import Riaps.Deployment.PeerQueue
import Riaps.Foundation.Exceptions
import Riaps.Deployment.ClientRequests
import Riaps.Deployment.Firewall
import Riaps.Coordination.Reelection
import Riaps.Coordination.Totality
import Riaps.Coordination.Timing
import Riaps.Component.RoundRobin
import Riaps.Component.Priority
import Riaps.Component.Running
import Riaps.Component.Cancelling
import Riaps.Actor.Termination
import Riaps.Component.Ports
import Riaps.Component.Wiring
import Riaps.Component.Resetting
import Riaps.Discovery.Deletions
import Riaps.Discovery.Listening
import Riaps.Foundation.Lmdb
import Riaps.Discovery.Backup
import Riaps.Foundation.Redis
import Riaps.Discovery.RedisDbase
import Riaps.Deployment.FirewallPolicy
import Riaps.Deployment.AppStore
import Riaps.Deployment.Cleaning
import Riaps.Deployment.NicMonitor
import Riaps.Deployment.Restarting
import Riaps.Foundation.Framing
import Riaps.Foundation.Loops
import Riaps.Foundation.Floats
import Riaps.Foundation.Regions
import Riaps.Logger.PlatformLog
import Riaps.Lang.Model
import Riaps.Lang.Usage
import Riaps.Lang.Compile
import Riaps.Lang.Scopes
import Riaps.Lang.Depl
import Riaps.Gen.CompTpl
import Riaps.Gen.SyncPython
import Riaps.Coordination.Wire
import Riaps.Deployment.Commands
import Riaps.Deployment.Pausing
import Riaps.Foundation.Atomic
import Riaps.Foundation.Struct
import Riaps.Foundation.DottedQuad
import Riaps.Coordination.Addresses
import Riaps.Foundation.Tables
import Riaps.Actor.Arguments
import Riaps.Foundation.Interleaving
import Riaps.Logger.AppLog
import Riaps.Foundation.Utf8
import Riaps.Foundation.Channels
import Riaps.Discovery.PeerMon
import Riaps.Discovery.Bootstrapping
import Riaps.Control.Packages
import Riaps.Deployment.AppModels
import Riaps.Deployment.Policies
