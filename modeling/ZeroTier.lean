import ZeroTier.Wire.Buffer
import ZeroTier.Credential.CertificateOfMembership
import ZeroTier.Credential.RoundTrip
import ZeroTier.Credential.Decode
import ZeroTier.Node.Node
import ZeroTier.Node.Identity
import ZeroTier.Node.BackgroundTasks
import ZeroTier.Node.Online
import ZeroTier.Node.Membership
import ZeroTier.Controller.Json
import ZeroTier.Controller.JSONDB
import ZeroTier.Controller.Refinement
import ZeroTier.Controller.ReverseIndex
import ZeroTier.Controller.Load
import ZeroTier.Controller.Persistence
import ZeroTier.Controller.Summary
import ZeroTier.Controller.SummaryFold
import ZeroTier.Controller.Concurrency
import ZeroTier.Controller.ConcurrentIndex
import ZeroTier.Node.Prng
import ZeroTier.Node.PingCheck
import ZeroTier.Node.DirectPaths
import ZeroTier.Controller.IpcReader
import ZeroTier.Node.NetworkConfig
import ZeroTier.Node.ConfigTransfer
