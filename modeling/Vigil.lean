import Vigil.Backend
import Vigil.CompletionPort.Constant
import Vigil.CompletionPort.Layout
import Vigil.CompletionPort.Replay
import Vigil.CompletionPort.Session
import Vigil.Proofs.Channel.Rearming
import Vigil.Proofs.CompletionPort.Failures
import Vigil.Proofs.CompletionPort.Families
import Vigil.Proofs.CompletionPort.Ownership
import Vigil.Proofs.CompletionPort.Views
import Vigil.Proofs.Configuration
import Vigil.Proofs.Debugging.Sessions
import Vigil.Proofs.Epoll.Timeout
import Vigil.Proofs.Epoll.Wake
import Vigil.Proofs.Iteration
import Vigil.Proofs.Kqueue.Registrations
import Vigil.Proofs.Lifetime.Sessions
import Vigil.Proofs.Registry
import Vigil.Proofs.RingPoller.Addition
import Vigil.Proofs.RingPoller.Cancellation
import Vigil.Proofs.RingPoller.Capacity
import Vigil.Proofs.RingPoller.Delivery
import Vigil.Proofs.RingPoller.EdgeInterest
import Vigil.Proofs.RingPoller.Oneshot
import Vigil.Proofs.RingPoller.Requests
import Vigil.Proofs.RingPoller.Staleness
import Vigil.Proofs.RingPoller.Tables
import Vigil.Proofs.RoundTrip
import Vigil.Proofs.Selection
import Vigil.Proofs.Wait.Contents
import Vigil.Proofs.Wait.Expiry
import Vigil.Reading
import Vigil.Replay
import Vigil.RingPoller.Termination
import Vigil.Session
