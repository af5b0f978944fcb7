import SwiftLink.Protocol.ErrorDetection
import SwiftLink.Transfer.WireFormat
import SwiftLink.Transfer.DeclaredSize
import SwiftLink.Transfer.Publication
import SwiftLink.Transfer.NaiveWindow
import SwiftLink.Transfer.ControlIsolation
import SwiftLink.Transfer.Termination
import SwiftLink.Transfer.StoredSet
import SwiftLink.Transfer.ArrivalOrder
import SwiftLink.Transfer.Replay
import SwiftLink.Transfer.Containment
import SwiftLink.System.Blocking
import SwiftLink.System.Delivery
import SwiftLink.System.EndToEnd
import SwiftLink.System.Errors
import SwiftLink.System.Deployment
import SwiftLink.System.Progress
import SwiftLink.System.ThroughProxy
import SwiftLink.Server.Accounting
import SwiftLink.Server.EventLoop
import SwiftLink.Server.SharedDirectory
import SwiftLink.Io.ShortTransfers
import SwiftLink.Tools.ProxyOrder
import SwiftLink.System.ServerProgress
