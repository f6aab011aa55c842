import XbTunnel.System
import XbTunnel.Browser.Entered
import XbTunnel.Browser.Play
import XbTunnel.Server.Refinement
import XbTunnel.Server.Interleaved
import XbTunnel.Server.ShutOut
import XbTunnel.Server.Uninterrupted
import XbTunnel.Server.Entry
import XbTunnel.Server.Api
import XbTunnel.Server.Anonymous
import XbTunnel.Server.Seat
import XbTunnel.Server.Growth
import XbTunnel.Server.Emissions
import XbTunnel.Daemon.Idle
import XbTunnel.Daemon.Commands
import XbTunnel.Daemon.Clients
import XbTunnel.Daemon.Signals
import XbTunnel.Daemon.Outbox
import XbTunnel.Daemon.Tunnel
import XbTunnel.Daemon.Inward
import XbTunnel.Daemon.Traffic
import XbTunnel.Daemon.Handles
import XbTunnel.Server.Balance
import XbTunnel.Server.RoomIds
import XbTunnel.Server.Membership
import XbTunnel.Daemon.Updates
import XbTunnel.Daemon.Flags
import XbTunnel.Server.XboxLists
import XbTunnel.Daemon.XboxPeers
import XbTunnel.Server.Requests
import XbTunnel.Server.Cookies
import XbTunnel.Daemon.Advertise
import XbTunnel.Daemon.Shim
import XbTunnel.Daemon.Returning
import XbTunnel.Daemon.Resolve
import XbTunnel.Daemon.Fields
import XbTunnel.Daemon.Datagram
import XbTunnel.Daemon.Shutdown
import XbTunnel.Daemon.Dying
import XbTunnel.Daemon.Reconnect
import XbTunnel.Daemon.Loop
import XbTunnel.Daemon.Delivery
import XbTunnel.Daemon.Lan
import XbTunnel.Daemon.Registry
import XbTunnel.Daemon.Closing
import XbTunnel.Daemon.Moves
import XbTunnel.Daemon.Deadlock
import XbTunnel.Daemon.Network
import XbTunnel.Daemon.Local
import XbTunnel.Daemon.Client
import XbTunnel.Daemon.PeerConn
import XbTunnel.Server.Spoofing
import XbTunnel.Server.Relay
import XbTunnel.Server.Logins
import XbTunnel.Server.Attach
import XbTunnel.Server.Notify
import XbTunnel.Server.Listing
import XbTunnel.Server.Rooms
import XbTunnel.Server.Invariant
import XbTunnel.Server.Tokens
import XbTunnel.Server.Accounts
import XbTunnel.Server.Database
import XbTunnel.Server.Effect
import XbTunnel.Server.Lookup
import XbTunnel.Server.Step
import XbTunnel.Server.Store
import XbTunnel.Lib.Effects
import XbTunnel.Daemon.Sideband
import XbTunnel.Daemon.Routing
import XbTunnel.Daemon.StateManager
import XbTunnel.Lib.Maps
import XbTunnel.Daemon.Reader
import XbTunnel.Daemon.Transmit
import XbTunnel.Daemon.Checksum
import XbTunnel.Lib.UdpFrame
import XbTunnel.Daemon.Udp
import XbTunnel.Lib.Runs
