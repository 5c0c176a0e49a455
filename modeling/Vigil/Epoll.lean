import Vigil.Buffer
import Vigil.Channel
import Vigil.Config

/-!
# The poll set

An `Epoll` keeps its registrations in the kernel, under one descriptor, and watches a wake-up channel among them. A
wait fills the buffer with what fired, drains the channel and arms it again.
-/

namespace Vigil

/-- A poll set, with its wake-up channel once there is one, and whether that was registered. -/
structure Epoll where
  fd : Descriptor := noDescriptor
  channel : Option Channel := none
  attached : Bool := false
  deriving DecidableEq

namespace Epoll

variable {K : Kernel}

/-- Tells something about a poll set. -/
def note (m : Message) : Sys K Unit := Vigil.note (.backend .epoll m)

/-! ## Registrations -/

/-- Whether a descriptor is the one of the wake-up channel. -/
def watchesFor (p : Epoll) (fd : Descriptor) : Bool := p.channel.any (·.watched == fd)

/-- Adds or changes a registration. -/
def control (p : Epoll) (op : Control) (fd : Descriptor) (e : Event) (mode : Mode) : Sys K Code := do
  match ← call (.epollControl p.fd op fd (some ⟨e.interest mode, e.key⟩)) with
  | .ok _ => pure Code.success
  | .error _ =>
    let code ← errno
    note (.failed (.epollControl op fd) code)
    pure code

/-- The code of a change that fails is the one of the call. -/
theorem control_eq (p : Epoll) (op : Control) (fd : Descriptor) (e : Event) (mode : Mode) :
    p.control (K := K) op fd e mode = (do
      match ← call (.epollControl p.fd op fd (some ⟨e.interest mode, e.key⟩)) with
      | .ok _ => pure Code.success
      | .error code =>
        note (.failed (.epollControl op fd) code)
        pure code) := by
  refine call_congr fun reply w h => ?_
  cases reply with
  | error code => exact Sys.errno_bind (h code rfl)
  | ok _ => rfl

/-- Notes an operation on a descriptor, unless it is the one of the wake-up channel, and carries it out. -/
def register (p : Epoll) (op : Control) (fd : Descriptor) (e : Event) (mode : Mode) : Sys K Code := do
  if !p.watchesFor fd then note (.register op p.fd fd e mode)
  p.control op fd e mode

/-- Adds a registration. -/
def add (p : Epoll) (fd : Descriptor) (e : Event) (mode : Mode) : Sys K Code := p.register .add fd e mode

/-- Changes a registration. -/
def modify (p : Epoll) (fd : Descriptor) (e : Event) (mode : Mode) : Sys K Code := p.register .modify fd e mode

/-- Drops a registration; one that is not there, or that went away with its file, counts as dropped. -/
def remove (p : Epoll) (fd : Descriptor) : Sys K Code := do
  note (.remove p.fd fd)
  match ← call (.epollControl p.fd .delete fd none) with
  | .ok _ => pure Code.success
  | .error _ =>
    let code ← errno
    if code = Code.noEntry then
      pure Code.success
    else
      note (.failed (.epollDelete fd) code)
      pure code

theorem remove_eq (p : Epoll) (fd : Descriptor) : p.remove (K := K) fd = (do
    note (.remove p.fd fd)
    match ← call (.epollControl p.fd .delete fd none) with
    | .ok _ => pure Code.success
    | .error code =>
      if code = Code.noEntry then
        pure Code.success
      else
        note (.failed (.epollDelete fd) code)
        pure code) := by
  refine congrArg (note (.remove p.fd fd) >>= ·) (funext fun _ => call_congr fun reply w h => ?_)
  cases reply with
  | error code => exact Sys.errno_bind (h code rfl)
  | ok _ => rfl

/-- A poll set as the place where its own channel is registered. -/
def registrar (p : Epoll) : Registrar K := ⟨p.add, p.modify, p.remove⟩

/-! ## Life -/

/-- The flag of poll sets that are closed on execution. -/
def closeOnExec : UInt32 := 524288

/-- The channel of a strategy. -/
def channelFor : WakeStrategy → Channel
  | .native => Channel.newCounter
  | .pipe => Channel.newPipe

/-- Creates the channel of a poll set, in place of the one that it had, and registers it. -/
def openChannel (p : Epoll) (s : WakeStrategy) : Sys K (Code × Epoll) := do
  if let some old := p.channel then old.close
  let (code, channel) ← (channelFor s).create
  let p := { p with channel := some channel }
  if code ≠ Code.success then
    pure (code, p)
  else
    let code ← channel.attach p.registrar
    if code ≠ Code.success then
      note (.failed .attach code)
      pure (code, p)
    else
      note (.opened p.fd)
      pure (Code.success, { p with attached := true })

/-- Creates a poll set and its channel. -/
def init (p : Epoll) (s : WakeStrategy) : Sys K (Code × Epoll) := do
  match ← call (.epollCreate closeOnExec) with
  | .error r =>
    let code ← errno
    note (.failed .epollCreate code)
    pure (code, { p with fd := r.fd })
  | .ok fd => openChannel { p with fd := fd } s

theorem init_eq (p : Epoll) (s : WakeStrategy) : p.init (K := K) s = (do
    match ← call (.epollCreate closeOnExec) with
    | .error r =>
      note (.failed .epollCreate r.code)
      pure (r.code, { p with fd := r.fd })
    | .ok fd => openChannel { p with fd := fd } s) := by
  refine call_congr fun reply w h => ?_
  cases reply with
  | error r => exact Sys.errno_bind (h r.code rfl)
  | ok fd => rfl

/-- Stops watching a channel. -/
def detach (p : Epoll) (c : Channel) : Sys K Unit := do
  let code ← c.detach p.registrar
  if code ≠ Code.success then note (.failed .detach code)

/-- Gives up a poll set: its channel is dropped from it, then closed, and the set is closed last. -/
def drop (p : Epoll) : Sys K Unit := do
  note (.dropped p.fd)
  if let some c := p.channel then
    if p.attached then p.detach c
    c.close
  Channel.closeIfOpen p.fd

/-! ## Waiting -/

/-- Watches the channel again after a wait. -/
def reattach (p : Epoll) : Sys K Code :=
  match p.channel with
  | some c => c.reattach p.registrar
  | none => pure Code.success

/-- Asks the kernel what fired, with the time left. -/
def poll (p : Epoll) (d : Deadline) : Sys K (Fallible (Batch PollRecord)) := do
  settled (← call (.epollWait p.fd Buffer.capacity (d.millis (← now))))

theorem poll_eq (p : Epoll) (d : Deadline) : p.poll (K := K) d = (do
    call (.epollWait p.fd Buffer.capacity (d.millis (← now)))) :=
  congrArg (now >>= ·) (funext fun _ => call_congr fun _ _ h =>
    settled_apply fun code hcode => h code (by rw [hcode]; rfl))

theorem poll_apply (p : Epoll) (d : Deadline) (w : World K) :
    p.poll d w = call (.epollWait p.fd Buffer.capacity (d.millis (K.clock w.kernel))) w := by
  rw [poll_eq]
  rfl

/-- Waits until something fires, the time is over or the channel is woken, and replaces what is in the buffer. -/
def wait (p : Epoll) (b : Buffer) (timeout : Timeout) : Sys K (Code × Buffer) := do
  note (.wait p.fd timeout)
  let d := Deadline.after (← now) timeout
  match ← insist interrupted (p.poll d) with
  | .error code =>
    note (.failed .epollWait code)
    pure (code, b.clear)
  | .ok rs =>
    note (.fired p.fd rs.count)
    let code ← p.reattach
    pure (code, b.fill (rs.map Record.poll))

theorem wait_apply (p : Epoll) (b : Buffer) (timeout : Timeout) (w : World K) :
    p.wait b timeout w =
      let v := (note (.wait p.fd timeout) w).2
      let r := insist interrupted (p.poll (Deadline.after (K.clock v.kernel) timeout)) v
      match r.1 with
      | .error code => ((code, b.clear), (note (.failed .epollWait code) r.2).2)
      | .ok rs =>
        let s := p.reattach (note (.fired p.fd rs.count) r.2).2
        ((s.1, b.fill (rs.map Record.poll)), s.2) := by
  simp only [wait, Sys.bind_apply, Sys.now_apply]
  generalize insist _ _ _ = r
  cases r.1 <;> rfl

/-- Wakes a wait, or the next one. -/
def wake (p : Epoll) : Sys K Unit := do
  note (.wake p.fd)
  if let some c := p.channel then
    let code ← c.wake
    if code ≠ Code.success then note (.failed .wake code)

end Epoll

end Vigil
