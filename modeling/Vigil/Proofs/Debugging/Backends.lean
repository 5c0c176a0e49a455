import Vigil.Backend
import Vigil.Proofs.Calls
import Vigil.RingPoller.Termination

/-!
# What the life of a backend is put together from

Opening a backend, giving it up and selecting one are put together from calls, notes, the clock and the patience, as
the operations between them are (`Epoll.built_wait`, `Kqueue.built_wait`, `RingPoller.built_wait`). Notes stand between
a call that failed and the answer to its error, and inside of repetitions. That is no harm, because the number of the
error is read in front of them (`Epoll.init_eq`, `Kqueue.init_eq`).
-/

namespace Vigil

variable {K : Kernel}

/-! ## Wake-up channels -/

namespace Channel

theorem built_create (c : Channel) : Built (K := K) (fun _ => True) c.create := by
  have hsetUp : ∀ fds, Built (K := K) (fun _ => True) (setUpAll fds) :=
    built_setUpAll (fun _ => trivial) (fun _ _ => trivial) (fun _ => trivial) fun _ _ => trivial
  cases c with
  | pipe reader writer =>
    rw [create_pipe]
    refine (Built.call trivial).bind fun r => ?_
    cases r with
    | error e => exact (Built.note _).bind fun _ => .pure _
    | ok fds => exact (hsetUp _).bind fun _ => .pure _
  | counter fd =>
    rw [create_counter]
    refine (Built.call trivial).bind fun r => ?_
    cases r with
    | error r => exact (Built.note _).bind fun _ => .pure _
    | ok fd => exact .pure _

theorem built_closeIfOpen (fd : Descriptor) : Built (K := K) (fun _ => True) (closeIfOpen fd) :=
  .ite (.call trivial) (.pure ())

theorem built_close (c : Channel) : Built (K := K) (fun _ => True) c.close := by
  cases c with
  | pipe reader writer => exact (built_closeIfOpen reader).bind fun _ => built_closeIfOpen writer
  | counter fd => exact built_closeIfOpen fd

end Channel

/-! ## Poll sets -/

namespace Epoll

theorem built_openChannel (p : Epoll) (s : WakeStrategy) : Built (K := K) (fun _ => True) (p.openChannel s) := by
  unfold openChannel
  extract_lets create
  have hcreate : ∀ u, Built (K := K) (fun _ => True) (create u) := fun _ => (Channel.built_create _).bind fun _ =>
    .ite (.pure _) <| (built_register (fun _ _ _ _ => trivial) _ _ _ _ _).bind fun _ =>
      .ite ((Built.note _).bind fun _ => .pure _) ((Built.note _).bind fun _ => .pure _)
  split
  · exact (Channel.built_close _).bind hcreate
  · exact hcreate ()

theorem built_init (p : Epoll) (s : WakeStrategy) : Built (K := K) (fun _ => True) (p.init s) := by
  rw [init_eq]
  refine (Built.call trivial).bind fun r => ?_
  cases r with
  | error r => exact (Built.note _).bind fun _ => .pure _
  | ok fd => exact built_openChannel _ s

theorem built_drop (p : Epoll) : Built (K := K) (fun _ => True) p.drop := by
  have hclose : Built (K := K) (fun _ => True) (Channel.closeIfOpen p.fd) := Channel.built_closeIfOpen p.fd
  have hdetach : ∀ c, Built (K := K) (fun _ => True) (p.detach c) := fun c =>
    (p.built_remove (fun _ _ _ _ => trivial) _).bind fun _ => .told
  refine (Built.note _).bind fun _ => ?_
  split
  · rename_i c _
    have hend : Built (K := K) (fun _ => True) (do c.close; Channel.closeIfOpen p.fd) :=
      c.built_close.bind fun _ => hclose
    exact .ite ((hdetach c).bind fun _ => hend) hend
  · exact hclose

end Epoll

/-! ## Filter queues -/

namespace Waker

theorem built_create (w : Waker) : Built (K := K) (fun _ => True) w.create := by
  cases w with
  | userFilter => exact .pure _
  | channel c => exact c.built_create.bind fun _ => .pure _

theorem built_close (w : Waker) : Built (K := K) (fun _ => True) w.close := by
  cases w with
  | userFilter => exact .pure _
  | channel c => exact c.built_close

theorem built_attach (q : Kqueue) (w : Waker) : Built (K := K) (fun _ => True) (w.attach q) := by
  cases w with
  | userFilter => exact q.built_apply (fun _ _ => trivial) _
  | channel c => exact q.built_modify (fun _ _ => trivial) _ _ _

theorem built_detach (q : Kqueue) (w : Waker) : Built (K := K) (fun _ => True) (w.detach q) := by
  cases w with
  | userFilter => exact q.built_apply (fun _ _ => trivial) _
  | channel c => exact q.built_modify (fun _ _ => trivial) _ _ _

end Waker

namespace Kqueue

theorem built_openWaker (q : Kqueue) (s : WakeStrategy) : Built (K := K) (fun _ => True) (q.openWaker s) := by
  unfold openWaker
  extract_lets create
  have hcreate : ∀ u, Built (K := K) (fun _ => True) (create u) := fun _ => (Waker.built_create _).bind fun _ =>
    .ite (.pure _) <| (Waker.built_attach _ _).bind fun _ =>
      .ite ((Built.note _).bind fun _ => .pure _) ((Built.note _).bind fun _ => .pure _)
  split
  · exact (Waker.built_close _).bind hcreate
  · exact hcreate ()

theorem built_init (q : Kqueue) (s : WakeStrategy) : Built (K := K) (fun _ => True) (q.init s) := by
  rw [init_eq]
  refine (Built.call trivial).bind fun r => ?_
  cases r with
  | error r => exact (Built.note _).bind fun _ => .pure _
  | ok fd =>
    refine (Built.call trivial).bind fun r => ?_
    cases r with
    | error code => exact (Built.note _).bind fun _ => .pure _
    | ok _ => exact built_openWaker _ s

theorem built_drop (q : Kqueue) : Built (K := K) (fun _ => True) q.drop := by
  have hclose : Built (K := K) (fun _ => True) (Channel.closeIfOpen q.fd) := Channel.built_closeIfOpen q.fd
  have hdetach : ∀ w, Built (K := K) (fun _ => True) (q.detach w) := fun w => (w.built_detach q).bind fun _ => .told
  refine (Built.note _).bind fun _ => ?_
  split
  · rename_i w _
    have hend : Built (K := K) (fun _ => True) (do w.close; Channel.closeIfOpen q.fd) :=
      w.built_close.bind fun _ => hclose
    exact .ite ((hdetach w).bind fun _ => hend) hend
  · exact hclose

end Kqueue

/-! ## Polled rings -/

namespace RingPoller

theorem built_init (p : RingPoller) : Built (K := K) (fun _ => True) p.init :=
  (Built.call trivial).bind fun r => by
    cases r with
    | error code => exact (Built.note _).bind fun _ => .pure _
    | ok offer => exact .ite ((Built.note _).bind fun _ => .pure _) ((Built.note _).bind fun _ => .pure _)

theorem built_drop (p : RingPoller) : Built (K := K) (fun _ => True) p.drop :=
  (Built.note _).bind fun _ => .ite (.call trivial) (.pure ())

end RingPoller

/-! ## Backends of any kind -/

namespace Backend

theorem built_init (u : Setup) : ∀ b : Backend, Built (K := K) (fun _ => True) (b.init u)
  | epoll p => (p.built_init _).bind fun _ => .pure _
  | ring p => p.built_init.bind fun _ => .pure _
  | kqueue q => (q.built_init _).bind fun _ => .pure _

theorem built_drop : ∀ b : Backend, Built (K := K) (fun _ => True) b.drop
  | epoll p => p.built_drop
  | ring p => p.built_drop
  | kqueue q => q.built_drop

theorem built_add (fd : Descriptor) (e : Event) (mode : Mode) :
    ∀ b : Backend, Built (K := K) (fun _ => True) (b.add fd e mode)
  | epoll p => (p.built_register (fun _ _ _ _ => trivial) .add fd e mode).bind fun _ => .pure _
  | ring p => (p.built_add (fun _ _ => trivial) fd e mode).bind fun _ => .pure _
  | kqueue q => (q.built_modify (fun _ _ => trivial) fd e mode).bind fun _ => .pure _

theorem built_modify (fd : Descriptor) (e : Event) (mode : Mode) :
    ∀ b : Backend, Built (K := K) (fun _ => True) (b.modify fd e mode)
  | epoll p => (p.built_register (fun _ _ _ _ => trivial) .modify fd e mode).bind fun _ => .pure _
  | ring p => (p.built_modify (fun _ _ => trivial) fd e mode).bind fun _ => .pure _
  | kqueue q => (q.built_modify (fun _ _ => trivial) fd e mode).bind fun _ => .pure _

theorem built_remove (fd : Descriptor) : ∀ b : Backend, Built (K := K) (fun _ => True) (b.remove fd)
  | epoll p => (p.built_remove (fun _ _ _ _ => trivial) fd).bind fun _ => .pure _
  | ring p => (p.built_remove (fun _ _ => trivial) fd).bind fun _ => .pure _
  | kqueue q => (q.built_modify (fun _ _ => trivial) fd _ _).bind fun _ => .pure _

theorem built_wait (b : Buffer) (timeout : Timeout) :
    ∀ p : Backend, Built (K := K) (fun _ => True) (p.wait b timeout)
  | epoll p =>
    (p.built_wait (fun _ _ _ _ => trivial) (fun _ _ => trivial) (fun _ _ _ => trivial) b timeout).bind fun _ => .pure _
  | ring p => (p.built_wait (fun _ _ => trivial) b timeout).bind fun _ => .pure _
  | kqueue q =>
    (q.built_wait (fun _ _ => trivial) (fun _ _ => trivial) (fun _ _ _ => trivial) b timeout).bind fun _ => .pure _

theorem built_wake : ∀ b : Backend, Built (K := K) (fun _ => True) b.wake
  | epoll p => (p.built_wake fun _ _ => trivial).bind fun _ => .pure _
  | ring p => (p.built_wake fun _ _ => trivial).bind fun _ => .pure _
  | kqueue q => (q.built_wake (fun _ _ => trivial) fun _ _ => trivial).bind fun _ => .pure _

theorem built_submit (changes : List Kevent) : ∀ b : Backend, Built (K := K) (fun _ => True) (b.submit changes)
  | epoll _ => .pure _
  | ring _ => .pure _
  | kqueue q => q.built_apply (fun _ _ => trivial) _

/-! ## Selection -/

theorem built_attempt (u : Setup) (k : Kind) : Built (K := K) (fun _ => True) (attempt u k) :=
  (Built.note _).bind fun _ => (built_init u _).bind fun ⟨_, b⟩ =>
    .ite (.pure _) ((Built.note _).bind fun _ => b.built_drop.bind fun _ => .pure _)

theorem built_selectNamed (u : Setup) (name : String) : Built (K := K) (fun _ => True) (selectNamed u name) := by
  unfold selectNamed
  split
  · exact built_attempt u _
  · exact (Built.note _).bind fun _ => .pure _

theorem built_selectFirst (u : Setup) : ∀ ks, Built (K := K) (fun _ => True) (selectFirst u ks)
  | [] => (Built.note _).bind fun _ => .pure _
  | k :: ks => (built_attempt u k).bind fun b => by
    cases b with
    | some b => exact .pure _
    | none => exact built_selectFirst u ks

theorem built_select (u : Setup) (preferred : String) : Built (K := K) (fun _ => True) (select u preferred) := by
  refine .ite (built_selectFirst u _) ((built_selectNamed u preferred).bind fun b => ?_)
  cases b with
  | some b => exact .pure _
  | none => exact built_selectFirst u _

end Backend

end Vigil
