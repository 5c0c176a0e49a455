import Vigil.Kind
import Vigil.World

/-!
# Wake-up channels

A `Channel` is a descriptor that a backend watches under `notifyKey`, and that any thread can make readable: a pair of
sockets, or a counter. After each wait the channel is drained, and only then armed again (`Channel.reattach`), so that
what is written in between still fires. A full channel already holds a wake-up (`Channel.wake`).
-/

namespace Vigil

/-- Where descriptors are registered. -/
structure Registrar (K : Kernel) where
  add : Descriptor → Event → Mode → Sys K Code
  modify : Descriptor → Event → Mode → Sys K Code
  remove : Descriptor → Sys K Code

/-- The registrar of a backend outside this library. -/
def Registrar.host (K : Kernel) : Registrar K where
  add fd e mode := call (.hostAdd fd e mode)
  modify fd e mode := call (.hostModify fd e mode)
  remove fd := call (.hostRemove fd)

/-- How a wait is woken. -/
inductive Channel where
  /-- Bytes between two connected sockets. -/
  | pipe (reader writer : Descriptor)
  /-- A counter that reading resets. -/
  | counter (fd : Descriptor)
  deriving DecidableEq

namespace Channel

/-- A pair of sockets that are yet to be created. -/
def newPipe : Channel := pipe noDescriptor noDescriptor

/-- A counter that is yet to be created. -/
def newCounter : Channel := counter noDescriptor

/-- The channel of a name that is yet to be created. Only Linux has counters; all else is a pair of sockets. -/
def ofName : Platform → String → Channel
  | .linux, "eventfd" => newCounter
  | _, _ => newPipe

/-- The descriptor to watch. -/
def watched : Channel → Descriptor
  | pipe reader _ => reader
  | counter fd => fd

/-- The flags of a counter that is closed on execution and does not block. -/
def counterFlags : UInt32 := 526336

/-- The status flag of files that do not block. -/
def nonBlocking : Int32 := 2048

/-- The descriptor flag of files that are closed on execution. -/
def closeOnExec : Int32 := 1

variable {K : Kernel}

/-! ## Creation -/

/-- Makes a file non-blocking and closed on execution. -/
def setUp (fd : Descriptor) : Sys K Code := do
  match ← call (.getFlags fd) with
  | .error _ => errno
  | .ok flags =>
    match ← call (.setFlags fd (flags ||| nonBlocking)) with
    | .error _ => errno
    | .ok _ =>
      match ← call (.getDescriptorFlags fd) with
      | .error _ => errno
      | .ok flags =>
        match ← call (.setDescriptorFlags fd (flags ||| closeOnExec)) with
        | .error _ => errno
        | .ok _ => pure Code.success

/-- The first step that fails decides. -/
theorem setUp_eq (fd : Descriptor) : setUp (K := K) fd = (do
    match ← call (.getFlags fd) with
    | .error e => pure e
    | .ok flags =>
      match ← call (.setFlags fd (flags ||| nonBlocking)) with
      | .error e => pure e
      | .ok _ =>
        match ← call (.getDescriptorFlags fd) with
        | .error e => pure e
        | .ok flags =>
          match ← call (.setDescriptorFlags fd (flags ||| closeOnExec)) with
          | .error e => pure e
          | .ok _ => pure Code.success) := by
  refine call_congr fun reply w h => ?_
  cases reply with
  | error e => exact Sys.errno_apply (h e rfl)
  | ok flags =>
    refine congrFun (call_congr fun reply w h => ?_) w
    cases reply with
    | error e => exact Sys.errno_apply (h e rfl)
    | ok _ =>
      refine congrFun (call_congr fun reply w h => ?_) w
      cases reply with
      | error e => exact Sys.errno_apply (h e rfl)
      | ok flags =>
        refine congrFun (call_congr fun reply w h => ?_) w
        cases reply with
        | error e => exact Sys.errno_apply (h e rfl)
        | ok _ => rfl

/-- Sets up files in order, up to the first failure. -/
def setUpAll : List Descriptor → Sys K Code
  | [] => pure Code.success
  | fd :: fds => do
    let code ← setUp fd
    if code = Code.success then
      setUpAll fds
    else
      note (.channelFailed (.flags fd) code)
      pure code

/-- Creates the descriptors of a channel. -/
def create : Channel → Sys K (Code × Channel)
  | pipe reader writer => do
    match ← call .socketpair with
    | .error _ =>
      let code ← errno
      note (.channelFailed .sockets code)
      pure (code, pipe reader writer)
    | .ok (reader, writer) =>
      let code ← setUpAll [reader, writer]
      pure (code, pipe reader writer)
  | counter _ => do
    match ← call (.eventfd 0 counterFlags) with
    | .error r =>
      let code ← errno
      note (.channelFailed .counter code)
      pure (code, counter r.fd)
    | .ok fd => pure (Code.success, counter fd)

theorem create_pipe (reader writer : Descriptor) : (pipe reader writer).create (K := K) = (do
    match ← call .socketpair with
    | .error code =>
      note (.channelFailed .sockets code)
      pure (code, pipe reader writer)
    | .ok (reader, writer) =>
      let code ← setUpAll [reader, writer]
      pure (code, pipe reader writer)) := by
  refine call_congr fun reply w h => ?_
  cases reply with
  | error code => exact Sys.errno_bind (h code rfl)
  | ok fds => rfl

theorem create_counter (fd : Descriptor) : (counter fd).create (K := K) = (do
    match ← call (.eventfd 0 counterFlags) with
    | .error r =>
      note (.channelFailed .counter r.code)
      pure (r.code, counter r.fd)
    | .ok fd => pure (Code.success, counter fd)) := by
  refine call_congr fun reply w h => ?_
  cases reply with
  | error r => exact Sys.errno_bind (h r.code rfl)
  | ok fd => rfl

/-- Closes a descriptor, if there is one. -/
def closeIfOpen (fd : Descriptor) : Sys K Unit :=
  if 0 ≤ fd then call (.close fd) else pure ()

/-- Closes the descriptors of a channel. -/
def close : Channel → Sys K Unit
  | pipe reader writer => do
    closeIfOpen reader
    closeIfOpen writer
  | counter fd => closeIfOpen fd

/-! ## Registration -/

/-- Starts watching a channel. -/
def attach (r : Registrar K) (c : Channel) : Sys K Code := r.add c.watched (.readableOnly notifyKey) .oneshot

/-- Stops watching a channel. -/
def detach (r : Registrar K) (c : Channel) : Sys K Code := r.remove c.watched

/-- Whether a read is to be followed by another one. -/
def readAgain : Channel → Fallible Nat → Bool
  | _, .error e => e == Code.interrupted
  | pipe .., .ok n => 0 < n
  | counter _, .ok _ => false

/-- How much is read at once. -/
def readSize : Channel → Nat
  | pipe .. => 64
  | counter _ => 8

/-- Empties a channel. -/
def drain (c : Channel) : Sys K Unit := do
  let _ ← insist c.readAgain (do settled (← call (.read c.watched c.readSize)))
  pure ()

/-- The number of an error that ends the reading, or repeats it, is the one of the read. -/
theorem drain_eq (c : Channel) : c.drain (K := K) = (do
    let _ ← insist c.readAgain (call (.read c.watched c.readSize))
    pure ()) := by
  have hread : (do settled (← call (.read c.watched c.readSize)) : Sys K (Fallible Nat)) =
      call (.read c.watched c.readSize) :=
    call_congr fun _ _ h => settled_apply fun code hcode => h code (by rw [hcode]; rfl)
  rw [drain, hread]

/-- Empties a channel, and then watches it again. -/
def reattach (r : Registrar K) (c : Channel) : Sys K Code := do
  c.drain
  r.modify c.watched (.readableOnly notifyKey) .oneshot

/-! ## Waking -/

/-- The descriptor to write to. -/
def writer : Channel → Descriptor
  | pipe _ writer => writer
  | counter fd => fd

/-- What is written: one byte, or the number one in eight bytes. -/
def signal : Channel → List UInt8
  | pipe .. => [1]
  | counter _ => [1, 0, 0, 0, 0, 0, 0, 0]

/-- Makes a channel readable. -/
def wake (c : Channel) : Sys K Code := do
  match ← insist interrupted (do settled (← call (.write c.writer c.signal))) with
  | .ok _ => pure Code.success
  | .error e => pure (if e = Code.wouldBlock then Code.success else e)

theorem wake_eq (c : Channel) : c.wake (K := K) = (do
    match ← insist interrupted (call (.write c.writer c.signal)) with
    | .ok _ => pure Code.success
    | .error e => pure (if e = Code.wouldBlock then Code.success else e)) := by
  have hwrite : (do settled (← call (.write c.writer c.signal)) : Sys K (Fallible Nat)) =
      call (.write c.writer c.signal) :=
    call_congr fun _ _ h => settled_apply fun code hcode => h code (by rw [hcode]; rfl)
  rw [wake, hwrite]

end Channel

end Vigil
