import LineFrame.Main
import LineFrame.Pool.Directory
import LineFrame.Service.Recipe
import LineFrame.Session
import LineFrame.Proofs.Wire.RoundTrip
import LineFrame.Proofs.Wire.Grammar
import LineFrame.Proofs.Wire.Reencoding
import LineFrame.Proofs.Server.Recorded
import LineFrame.Proofs.Server.Containment
import LineFrame.Proofs.Serve.Failures
import LineFrame.Proofs.Serve.Pace
import LineFrame.Proofs.Pool.Books
import LineFrame.Proofs.Pool.Traffic
import LineFrame.Proofs.Pool.Visits
import LineFrame.Proofs.Pool.Waiting
import LineFrame.Proofs.Pool.Custody
import LineFrame.Proofs.Pool.Conservation
import LineFrame.Proofs.Pool.Seats
import LineFrame.Proofs.Pool.Capacity
import LineFrame.Proofs.Pool.Wakeups
import LineFrame.Proofs.Pool.Grants
import LineFrame.Proofs.Pool.Overtaking
import LineFrame.Proofs.Pool.Shutdown
import LineFrame.Proofs.Pool.Reuse
import LineFrame.Proofs.Pool.Raised
import LineFrame.Proofs.Client.Reconnect
import LineFrame.Proofs.Client.Fresh
import LineFrame.Proofs.Client.EndToEnd
import LineFrame.Proofs.Client.Hygiene
import LineFrame.Proofs.Serve.Script
import LineFrame.Proofs.Server.Turns
import LineFrame.Proofs.Server.Pace
import LineFrame.Proofs.Server.Framing
import LineFrame.Proofs.Server.Lifecycle
import LineFrame.Proofs.Client.Interrupts
import LineFrame.Proofs.Client.Collecting
import LineFrame.Proofs.Loops
import LineFrame.Proofs.Pool.Reaping
import LineFrame.Proofs.Wire.Expectations
import LineFrame.Proofs.Server.Lookup
import LineFrame.Proofs.Wire.Memory
import LineFrame.Proofs.Wire.Uses
import LineFrame.Proofs.Wire.Queue
import LineFrame.Proofs.Reception

