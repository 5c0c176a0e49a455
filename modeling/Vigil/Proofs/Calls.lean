import Vigil.Kqueue
import Vigil.Epoll

/-!
# What operations are put together from

Operations of a poll set change its registrations, and those of a filter queue change its filters. A wait also waits,
and then drains the wake-up channel; waking writes to the channel. No operation makes another call
(`Epoll.built_wait`, `Kqueue.built_wait`; for rings see `RingPoller.built_wait`).
-/

namespace Vigil

variable {K : Kernel} {P : Call → Prop}

/-! ## Channels -/

namespace Channel

section

variable (hget : ∀ fd, P (.getFlags fd)) (hset : ∀ fd flags, P (.setFlags fd flags))
  (hget' : ∀ fd, P (.getDescriptorFlags fd)) (hset' : ∀ fd flags, P (.setDescriptorFlags fd flags))

include hget hset hget' hset'

theorem built_setUp (fd : Descriptor) : Built (K := K) P (setUp fd) := by
  rw [setUp_eq]
  refine (Built.call (hget _)).bind fun flags => ?_
  cases flags with
  | error code => exact .pure _
  | ok flags =>
    refine (Built.call (hset _ _)).bind fun done => ?_
    cases done with
    | error code => exact .pure _
    | ok _ =>
      refine (Built.call (hget' _)).bind fun flags => ?_
      cases flags with
      | error code => exact .pure _
      | ok flags =>
        refine (Built.call (hset' _ _)).bind fun done => ?_
        cases done <;> exact .pure _

theorem built_setUpAll : ∀ fds : List Descriptor, Built (K := K) P (setUpAll fds)
  | [] => .pure _
  | fd :: fds => (built_setUp hget hset hget' hset' fd).bind fun _ =>
    .ite (built_setUpAll fds) ((Built.note _).bind fun _ => .pure _)

end

theorem built_reattach (hread : ∀ fd size, P (.read fd size)) {r : Registrar K}
    (hr : ∀ fd e mode, Built P (r.modify fd e mode)) (c : Channel) : Built P (c.reattach r) := by
  have hdrain : Built P (c.drain (K := K)) := by
    rw [drain_eq]
    exact (Built.insist (.call (hread _ _))).bind fun _ => .pure _
  exact hdrain.bind fun _ => hr _ _ _

theorem built_wake (hwrite : ∀ fd bytes, P (.write fd bytes)) (c : Channel) : Built (K := K) P c.wake := by
  rw [wake_eq]
  refine (Built.insist (.call (hwrite _ _))).bind fun r => ?_
  cases r with
  | error code => exact .pure _
  | ok n => exact .pure _

end Channel

/-- A code is told unless it means success. -/
theorem Built.told {code : Code} {n : Note} :
    Built (K := K) P (if code ≠ Code.success then Vigil.note n else Pure.pure ()) :=
  .ite (.note n) (.pure ())

/-! ## Poll sets -/

namespace Epoll

section

variable (hcontrol : ∀ set op fd entry, P (.epollControl set op fd entry))

include hcontrol

theorem built_register (p : Epoll) (op : Control) (fd : Descriptor) (e : Event) (mode : Mode) :
    Built (K := K) P (p.register op fd e mode) := by
  have h : Built (K := K) P (p.control op fd e mode) := by
    rw [control_eq]
    refine (Built.call (hcontrol _ _ _ _)).bind fun r => ?_
    cases r with
    | error code => exact (Built.note _).bind fun _ => .pure _
    | ok _ => exact .pure _
  exact .ite ((Built.note _).bind fun _ => h) h

theorem built_remove (p : Epoll) (fd : Descriptor) : Built (K := K) P (p.remove fd) := by
  rw [remove_eq]
  refine (Built.note _).bind fun _ => (Built.call (hcontrol _ _ _ _)).bind fun r => ?_
  cases r with
  | error code => exact .ite (.pure _) ((Built.note _).bind fun _ => .pure _)
  | ok _ => exact .pure _

theorem built_reattach (hread : ∀ fd size, P (.read fd size)) (p : Epoll) : Built (K := K) P p.reattach := by
  unfold reattach
  split
  · exact Channel.built_reattach hread (p.built_register hcontrol .modify) _
  · exact .pure _

theorem built_wait (hread : ∀ fd size, P (.read fd size))
    (hwait : ∀ set limit millis, P (.epollWait set limit millis)) (p : Epoll) (b : Buffer) (timeout : Timeout) :
    Built (K := K) P (p.wait b timeout) := by
  have hpoll : ∀ d, Built (K := K) P (p.poll d) := fun d =>
    p.poll_eq d ▸ Built.now.bind fun _ => .call (hwait _ _ _)
  refine (Built.note _).bind fun _ => Built.now.bind fun _ => (Built.insist (hpoll _)).bind fun r => ?_
  cases r with
  | error code => exact (Built.note _).bind fun _ => .pure _
  | ok rs => exact (Built.note _).bind fun _ => (p.built_reattach hcontrol hread).bind fun _ => .pure _

end

theorem built_wake (hwrite : ∀ fd bytes, P (.write fd bytes)) (p : Epoll) : Built (K := K) P p.wake := by
  refine (Built.note _).bind fun _ => ?_
  split
  · exact (Channel.built_wake hwrite _).bind fun _ => .told
  · exact .pure _

end Epoll

/-! ## Filter queues -/

namespace Kqueue

section

variable (hchange : ∀ queue changes, P (.keventChange queue changes))

include hchange

theorem built_apply (q : Kqueue) (changes : List Kevent) : Built (K := K) P (q.apply changes) := by
  rw [apply_eq]
  refine .ite (.pure _) ((Built.insist (.call (hchange _ _))).bind fun r => ?_)
  cases r with
  | error code => exact (Built.note _).bind fun _ => .pure _
  | ok receipts =>
    dsimp only
    split
    · exact .pure _
    · exact (Built.note _).bind fun _ => .pure _

theorem built_modify (q : Kqueue) (fd : Descriptor) (e : Event) (mode : Mode) :
    Built (K := K) P (q.modify fd e mode) :=
  .ite ((Built.note _).bind fun _ => q.built_apply hchange _) (q.built_apply hchange _)

theorem built_reattach (hread : ∀ fd size, P (.read fd size)) (q : Kqueue) : Built (K := K) P q.reattach := by
  unfold reattach
  split
  · rename_i waker _
    cases waker with
    | userFilter => exact .pure _
    | channel c => exact Channel.built_reattach hread (q.built_modify hchange) c
  · exact .pure _

theorem built_wait (hread : ∀ fd size, P (.read fd size))
    (hwait : ∀ queue limit timeout, P (.keventWait queue limit timeout)) (q : Kqueue) (b : Buffer)
    (timeout : Timeout) : Built (K := K) P (q.wait b timeout) := by
  have hpoll : ∀ d, Built (K := K) P (q.poll d) := fun d =>
    q.poll_eq d ▸ Built.now.bind fun _ => .call (hwait _ _ _)
  refine (Built.note _).bind fun _ => Built.now.bind fun _ => (Built.insist (hpoll _)).bind fun r => ?_
  cases r with
  | error code => exact (Built.note _).bind fun _ => .pure _
  | ok rs => exact (Built.note _).bind fun _ => (q.built_reattach hchange hread).bind fun _ => .pure _

theorem built_wake (hwrite : ∀ fd bytes, P (.write fd bytes)) (q : Kqueue) : Built (K := K) P q.wake := by
  have hfire : ∀ waker : Waker, Built (K := K) P (waker.fire q) := fun waker => by
    cases waker with
    | userFilter => exact q.built_apply hchange _
    | channel c => exact c.built_wake hwrite
  refine (Built.note _).bind fun _ => ?_
  split
  · exact (hfire _).bind fun _ => .told
  · exact .pure _

end

end Kqueue

end Vigil
