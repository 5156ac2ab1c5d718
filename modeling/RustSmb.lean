import RustSmb.Auth.NtlmMessages
import RustSmb.Auth.Spnego
import RustSmb.Cached.Epochs
import RustSmb.Cached.Races
import RustSmb.Cached.Sequential
import RustSmb.Coordinator.Epochs
import RustSmb.Coordinator.Failures
import RustSmb.Coordinator.LockTables
import RustSmb.Coordinator.Monitor
import RustSmb.Protocol.Contexts
import RustSmb.Protocol.Encryption
import RustSmb.Redis.Handles
import RustSmb.Redis.Leases
import RustSmb.Redis.LockRaces
import RustSmb.Server.Bounds
import RustSmb.Server.MessageLoop
import RustSmb.Server.References
import RustSmb.Session.Credits
import RustSmb.System.ChannelKeys
import RustSmb.System.Expiry
import RustSmb.System.FullGrant
import RustSmb.System.Gate
import RustSmb.System.LeaseLoss
import RustSmb.System.LockedRange
import RustSmb.System.Oplocks
import RustSmb.System.ReconnectOnce
import RustSmb.System.Rejected
import RustSmb.System.SharedKeys
import RustSmb.System.Signed
import RustSmb.System.SignedCompound
import RustSmb.System.Singly
