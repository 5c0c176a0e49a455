import Vigil.Buffer
import Vigil.Channel
import Vigil.Config

/-!
# The filter queue

A `Kqueue` keeps reading and writing apart, as two filters of one descriptor, and states both in every change
(`Event.changes`). Changes are answered by receipts; `verdict` says which receipt, if any, makes a change fail. Waits
are woken by a user filter of the queue itself, or through a pair of sockets.
-/

namespace Vigil

/-- What wakes a filter queue. -/
inductive Waker where
  /-- A filter that is triggered by hand. -/
  | userFilter
  | channel (c : Channel)
  deriving DecidableEq

/-- A filter queue, with what wakes it once there is such a thing, and whether that was registered. -/
structure Kqueue where
  fd : Descriptor := noDescriptor
  waker : Option Waker := none
  attached : Bool := false
  deriving DecidableEq

/-! ## Changes -/

namespace Kevent

/-- The same change, with a receipt asked for. -/
def withReceipt (k : Kevent) : Kevent := { k with flags := k.flags ||| receipt }

/-- A descriptor as the identifier of a filter. -/
def identOf (fd : Descriptor) : UInt64 := fd.toInt64.toUInt64

/-- The change of one filter of a descriptor: added with a mode if it is wanted, deleted otherwise. -/
def change (fd : Descriptor) (filter : Int16) (wanted : Bool) (mode : Mode) (key : Key) : Kevent where
  ident := identOf fd
  filter := filter
  flags := (if wanted then add ||| mode.flags else delete) ||| receipt
  fflags := 0
  data := 0
  udata := key

/-- Only the change of a filter that is wanted adds it. -/
theorem flags_change_add (fd : Descriptor) (filter : Int16) (wanted : Bool) (mode : Mode) (key : Key) :
    ((change fd filter wanted mode key).flags &&& add != 0) = wanted := by
  -- neither the descriptor nor the filter nor the key plays a part
  show (((if wanted then add ||| mode.flags else delete) ||| receipt) &&& add != 0) = wanted
  cases mode <;> decide +revert

/-- A change of the user filter. -/
def userChange (flags : UInt16) (fflags : UInt32) : Kevent := ⟨0, user, flags, fflags, 0, notifyKey⟩

/-- Whether a receipt makes its change fail. Errors that only tell of a handle closed in the meantime do not. -/
def isFailure (r : Kevent) : Bool :=
  r.flags &&& error != 0 && r.data != 0 && !Code.isBenign r.data

end Kevent

/-- The changes that make a descriptor's filters follow an event. -/
def Event.changes (e : Event) (fd : Descriptor) (mode : Mode) : List Kevent :=
  [Kevent.change fd Kevent.read e.readable mode e.key, Kevent.change fd Kevent.write e.writable mode e.key]

/-- The first receipt that makes its change fail. -/
def verdict (receipts : List Kevent) : Option Kevent := receipts.find? Kevent.isFailure

namespace Kqueue

variable {K : Kernel}

/-- Tells something about a filter queue. -/
def note (m : Message) : Sys K Unit := Vigil.note (.backend .kqueue m)

/-- The largest number of changes made at once. -/
def maxChanges : Nat := 2

/-- Applies changes that all ask for receipts. Their number is the room for answers, so the call returns at once. -/
def apply (q : Kqueue) (changes : List Kevent) : Sys K Code := do
  if maxChanges < changes.length then
    pure Code.invalid
  else
    match ← insist interrupted (do settled (← call (.keventChange q.fd changes))) with
    | .error code =>
      note (.failed .keventChange code)
      pure code
    | .ok receipts =>
      match verdict receipts with
      | none => pure Code.success
      | some r =>
        note (.changeFailed r r.data.toInt32)
        pure r.data.toInt32

/-- The code of changes that were not applied is the one of the last call. -/
theorem apply_eq (q : Kqueue) (changes : List Kevent) : q.apply (K := K) changes = (do
    if maxChanges < changes.length then
      pure Code.invalid
    else
      match ← insist interrupted (call (.keventChange q.fd changes)) with
      | .error code =>
        note (.failed .keventChange code)
        pure code
      | .ok receipts =>
        match verdict receipts with
        | none => pure Code.success
        | some r =>
          note (.changeFailed r r.data.toInt32)
          pure r.data.toInt32) := by
  have hchange : (do settled (← call (.keventChange q.fd changes)) : Sys K (Fallible (List Kevent))) =
      call (.keventChange q.fd changes) :=
    call_congr fun _ _ h => settled_apply fun code hcode => h code (by rw [hcode]; rfl)
  rw [apply, hchange]

/-- Applies any changes, asking for their receipts. -/
def submit (q : Kqueue) (changes : List Kevent) : Sys K Code := q.apply (changes.map Kevent.withReceipt)

/-! ## Registrations -/

/-- Whether a descriptor is the one of the wake-up channel. -/
def watchesFor (q : Kqueue) (fd : Descriptor) : Bool :=
  match q.waker with
  | some (.channel c) => c.watched == fd
  | _ => false

/-- States both filters of a descriptor. -/
def modify (q : Kqueue) (fd : Descriptor) (e : Event) (mode : Mode) : Sys K Code := do
  if !q.watchesFor fd then note (.register .modify q.fd fd e mode)
  q.apply (e.changes fd mode)

/-- Adds a registration. Stating a filter creates it, so there is nothing else to do. -/
def add (q : Kqueue) (fd : Descriptor) (e : Event) (mode : Mode) : Sys K Code := q.modify fd e mode

/-- Drops a registration. -/
def remove (q : Kqueue) (fd : Descriptor) : Sys K Code := q.modify fd (.none 0) .oneshot

/-- A filter queue as the place where its own channel is registered. -/
def registrar (q : Kqueue) : Registrar K := ⟨q.add, q.modify, q.remove⟩

end Kqueue

/-! ## Waking -/

namespace Waker

variable {K : Kernel}

/-- The waker of a strategy, yet to be created. -/
def ofStrategy : WakeStrategy → Waker
  | .native => userFilter
  | .pipe => channel Channel.newPipe

/-- Creates the descriptors that a waker needs. -/
def create : Waker → Sys K (Code × Waker)
  | userFilter => pure (Code.success, userFilter)
  | channel c => do
    let (code, c) ← c.create
    pure (code, channel c)

/-- Closes the descriptors of a waker. -/
def close : Waker → Sys K Unit
  | userFilter => pure ()
  | channel c => c.close

/-- Starts watching a waker. -/
def attach (q : Kqueue) : Waker → Sys K Code
  | userFilter => q.apply [Kevent.userChange (Kevent.add ||| Kevent.receipt ||| Kevent.clear) 0]
  | channel c => c.attach q.registrar

/-- Stops watching a waker. -/
def detach (q : Kqueue) : Waker → Sys K Code
  | userFilter => q.apply [Kevent.userChange (Kevent.delete ||| Kevent.receipt) 0]
  | channel c => c.detach q.registrar

/-- Watches a waker again after a wait. The user filter resets itself when it is delivered. -/
def reattach (q : Kqueue) : Waker → Sys K Code
  | userFilter => pure Code.success
  | channel c => c.reattach q.registrar

/-- Makes a waker fire. -/
def fire (q : Kqueue) : Waker → Sys K Code
  | userFilter => q.apply [Kevent.userChange (Kevent.add ||| Kevent.receipt) Kevent.trigger]
  | channel c => c.wake

end Waker

namespace Kqueue

variable {K : Kernel}

/-- Wakes a wait, or the next one. -/
def wake (q : Kqueue) : Sys K Unit := do
  note (.wake q.fd)
  if let some w := q.waker then
    let code ← w.fire q
    if code ≠ Code.success then note (.failed .wake code)

/-! ## Life -/

/-- Creates the waker of a queue, in place of the one that it had, and registers it. -/
def openWaker (q : Kqueue) (s : WakeStrategy) : Sys K (Code × Kqueue) := do
  if let some old := q.waker then old.close
  let (code, waker) ← (Waker.ofStrategy s).create
  let q := { q with waker := some waker }
  if code ≠ Code.success then
    pure (code, q)
  else
    let code ← waker.attach q
    if code ≠ Code.success then
      note (.failed .attach code)
      pure (code, q)
    else
      note (.opened q.fd)
      pure (Code.success, { q with attached := true })

/-- Creates a filter queue and its waker. -/
def init (q : Kqueue) (s : WakeStrategy) : Sys K (Code × Kqueue) := do
  match ← call .kqueueCreate with
  | .error r =>
    let code ← errno
    note (.failed .kqueueCreate code)
    pure (code, { q with fd := r.fd })
  | .ok fd =>
    let q := { q with fd := fd }
    match ← call (.setDescriptorFlags fd Channel.closeOnExec) with
    | .error _ =>
      let code ← errno
      note (.failed .closeOnExec code)
      pure (code, q)
    | .ok _ => q.openWaker s

theorem init_eq (q : Kqueue) (s : WakeStrategy) : q.init (K := K) s = (do
    match ← call .kqueueCreate with
    | .error r =>
      note (.failed .kqueueCreate r.code)
      pure (r.code, { q with fd := r.fd })
    | .ok fd =>
      let q := { q with fd := fd }
      match ← call (.setDescriptorFlags fd Channel.closeOnExec) with
      | .error code =>
        note (.failed .closeOnExec code)
        pure (code, q)
      | .ok _ => q.openWaker s) := by
  refine call_congr fun reply w h => ?_
  cases reply with
  | error r => exact Sys.errno_bind (h r.code rfl)
  | ok fd =>
    refine congrFun (call_congr fun reply w h => ?_) w
    cases reply with
    | error code => exact Sys.errno_bind (h code rfl)
    | ok _ => rfl

/-- Stops watching a waker. -/
def detach (q : Kqueue) (w : Waker) : Sys K Unit := do
  let code ← w.detach q
  if code ≠ Code.success then note (.failed .detach code)

/-- Gives up a filter queue: its waker is dropped from it, then closed, and the queue is closed last. -/
def drop (q : Kqueue) : Sys K Unit := do
  note (.dropped q.fd)
  if let some w := q.waker then
    if q.attached then q.detach w
    w.close
  Channel.closeIfOpen q.fd

/-! ## Waiting -/

/-- Watches the waker again after a wait. -/
def reattach (q : Kqueue) : Sys K Code :=
  match q.waker with
  | some w => w.reattach q
  | none => pure Code.success

/-- Asks the kernel what fired, with the time left. -/
def poll (q : Kqueue) (d : Deadline) : Sys K (Fallible (Batch Kevent)) := do
  settled (← call (.keventWait q.fd Buffer.capacity (d.timespec (← now))))

theorem poll_eq (q : Kqueue) (d : Deadline) : q.poll (K := K) d = (do
    call (.keventWait q.fd Buffer.capacity (d.timespec (← now)))) :=
  congrArg (now >>= ·) (funext fun _ => call_congr fun _ _ h =>
    settled_apply fun code hcode => h code (by rw [hcode]; rfl))

theorem poll_apply (q : Kqueue) (d : Deadline) (w : World K) :
    q.poll d w = call (.keventWait q.fd Buffer.capacity (d.timespec (K.clock w.kernel))) w := by
  rw [poll_eq]
  rfl

/-- Waits until something fires, the time is over or the waker fires, and replaces what is in the buffer. -/
def wait (q : Kqueue) (b : Buffer) (timeout : Timeout) : Sys K (Code × Buffer) := do
  note (.wait q.fd timeout)
  let d := Deadline.after (← now) timeout
  match ← insist interrupted (q.poll d) with
  | .error code =>
    note (.failed .keventWait code)
    pure (code, b.clear)
  | .ok rs =>
    note (.fired q.fd rs.count)
    let code ← q.reattach
    pure (code, b.fill (rs.map Record.filter))

theorem wait_apply (q : Kqueue) (b : Buffer) (timeout : Timeout) (w : World K) :
    q.wait b timeout w =
      let v := (note (.wait q.fd timeout) w).2
      let r := insist interrupted (q.poll (Deadline.after (K.clock v.kernel) timeout)) v
      match r.1 with
      | .error code => ((code, b.clear), (note (.failed .keventWait code) r.2).2)
      | .ok rs =>
        let s := q.reattach (note (.fired q.fd rs.count) r.2).2
        ((s.1, b.fill (rs.map Record.filter)), s.2) := by
  simp only [wait, Sys.bind_apply, Sys.now_apply]
  generalize insist _ _ _ = r
  cases r.1 <;> rfl

end Kqueue

end Vigil
