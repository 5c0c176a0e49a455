import Vigil.Duration
import Vigil.Ring

/-!
# The kernel as seen from here

- `Call` and `Reply`: what is asked of the kernel, and what it answers. A creation that fails still answers a number
  (`Refusal`), which callers keep in the place of a descriptor;
- `Kernel`: any kernel, as a state with an answer to each call. Replies after which the caller tries again (`retried`)
  come to an end: each of them lowers `patience`, and no call of a wait on a ring raises it;
- `Exchange`: a call with its answer.
-/

namespace Vigil

/-- A reply that may be an error. -/
abbrev Fallible (α : Type) := Except Code α

/-- Why nothing was created, and the negative number that was answered in the place of a descriptor. -/
structure Refusal where
  code : Code
  fd : Descriptor
  fd_neg : fd < 0
  deriving DecidableEq

/-- A refusal that answers with the number of no descriptor. -/
def Refusal.ofCode (code : Code) : Refusal := ⟨code, noDescriptor, by decide⟩

/-! ## Calls -/

/-- How the mask and key of a registration are changed. -/
inductive Control where
  | add
  | delete
  | modify
  deriving DecidableEq

/-- A call of the kernel, with its arguments. -/
inductive Call where
  /-- Create a poll set. -/
  | epollCreate (flags : UInt32)
  /-- Change a registration of a poll set. -/
  | epollControl (set : Descriptor) (op : Control) (fd : Descriptor) (entry : Option PollRecord)
  /-- Wait for registrations of a poll set; `-1` milliseconds wait for ever. -/
  | epollWait (set : Descriptor) (limit : Nat) (millis : Int)
  /-- Create a counter that can be read and written. -/
  | eventfd (initial flags : UInt32)
  /-- Create two connected stream sockets. -/
  | socketpair
  /-- Read the status flags of an open file. -/
  | getFlags (fd : Descriptor)
  /-- Set the status flags of an open file. -/
  | setFlags (fd : Descriptor) (flags : Int32)
  /-- Read the flags of a descriptor. -/
  | getDescriptorFlags (fd : Descriptor)
  /-- Set the flags of a descriptor. -/
  | setDescriptorFlags (fd : Descriptor) (flags : Int32)
  /-- Read up to a number of bytes. -/
  | read (fd : Descriptor) (size : Nat)
  /-- Write bytes. -/
  | write (fd : Descriptor) (bytes : List UInt8)
  /-- Close a descriptor. -/
  | close (fd : Descriptor)
  /-- Create a filter queue. -/
  | kqueueCreate
  /-- Apply changes to a filter queue, and take their receipts. -/
  | keventChange (queue : Descriptor) (changes : List Kevent)
  /-- Wait for filters of a queue. -/
  | keventWait (queue : Descriptor) (limit : Nat) (timeout : Option Timespec)
  /-- Create a ring; a success may come without an offer. -/
  | ringCreate (entries flags : UInt32)
  /-- Take a ring down. -/
  | ringExit (fd : Descriptor)
  /-- Hand over the queued requests; the reply says how many of them, from the oldest on, were taken. -/
  | ringSubmit (requests : List Submission)
  /-- Wait for a completion, beside those that are queued already. -/
  | ringWait (queued : Nat) (timeout : Option Timespec)
  /-- Give back the room of consumed completions. -/
  | ringAdvance (n : Nat)
  /-- Register a descriptor with a backend that is not part of this library. -/
  | hostAdd (fd : Descriptor) (event : Event) (mode : Mode)
  /-- Change a registration there. -/
  | hostModify (fd : Descriptor) (event : Event) (mode : Mode)
  /-- Drop a registration there. -/
  | hostRemove (fd : Descriptor)
  deriving DecidableEq

/-- The kind of answer to a call. -/
@[reducible] def Reply : Call → Type
  | .epollCreate _ => Except Refusal Descriptor
  | .epollControl .. => Fallible Unit
  | .epollWait .. => Fallible (Batch PollRecord)
  | .eventfd .. => Except Refusal Descriptor
  | .socketpair => Fallible (Descriptor × Descriptor)
  | .getFlags _ => Fallible Int32
  | .setFlags .. => Fallible Unit
  | .getDescriptorFlags _ => Fallible Int32
  | .setDescriptorFlags .. => Fallible Unit
  | .read .. => Fallible Nat
  | .write .. => Fallible Nat
  | .close _ => Unit
  | .kqueueCreate => Except Refusal Descriptor
  | .keventChange .. => Fallible (List Kevent)
  | .keventWait .. => Fallible (Batch Kevent)
  | .ringCreate .. => Fallible (Option RingOffer)
  | .ringExit _ => Unit
  | .ringSubmit _ => Fallible Nat
  | .ringWait .. => Fallible (List Completion)
  | .ringAdvance _ => Unit
  | .hostAdd .. => Code
  | .hostModify .. => Code
  | .hostRemove _ => Code

/-- The error number that a reply leaves behind for the caller to read. The calls of a ring return theirs, a backend
outside this library answers a code, and nobody asks how closing went. -/
def Call.errorLeft : (c : Call) → Reply c → Option Code
  | .epollCreate _, .error r => some r.code
  | .epollControl .., .error e => some e
  | .epollWait .., .error e => some e
  | .eventfd .., .error r => some r.code
  | .socketpair, .error e => some e
  | .getFlags _, .error e => some e
  | .setFlags .., .error e => some e
  | .getDescriptorFlags _, .error e => some e
  | .setDescriptorFlags .., .error e => some e
  | .read .., .error e => some e
  | .write .., .error e => some e
  | .kqueueCreate, .error r => some r.code
  | .keventChange .., .error e => some e
  | .keventWait .., .error e => some e
  | _, _ => none

/-- Whether a reply only says that the call was interrupted. -/
def interrupted {α : Type} : Fallible α → Bool
  | .error e => e == Code.interrupted
  | .ok _ => false

/-- Whether some caller answers this reply by trying again: an interruption, bytes that were read while draining, and
completions that may all turn out to be stale. -/
def retried : (c : Call) → Reply c → Bool
  | .epollWait .., r => interrupted r
  | .read .., .error e => e == Code.interrupted
  | .read .., .ok n => 0 < n
  | .write .., r => interrupted r
  | .keventChange .., r => interrupted r
  | .keventWait .., r => interrupted r
  | .ringSubmit _, r => interrupted r
  | .ringWait .., .error e => e == Code.interrupted
  | .ringWait queued _, .ok cs => queued == 0 || !cs.isEmpty
  | _, _ => false

/-- Calls that a wait on a ring makes. -/
def Call.isOfRingWait : Call → Bool
  | ringSubmit _ => true
  | ringWait .. => true
  | ringAdvance _ => true
  | _ => false

/-- The answer of a kernel that does not know a call. -/
def Call.refusal : (c : Call) → Reply c
  | .epollCreate _ => .error (.ofCode Code.unsupported)
  | .epollControl .. => .error Code.unsupported
  | .epollWait .. => .error Code.unsupported
  | .eventfd .. => .error (.ofCode Code.unsupported)
  | .socketpair => .error Code.unsupported
  | .getFlags _ => .error Code.unsupported
  | .setFlags .. => .error Code.unsupported
  | .getDescriptorFlags _ => .error Code.unsupported
  | .setDescriptorFlags .. => .error Code.unsupported
  | .read .. => .error Code.unsupported
  | .write .. => .error Code.unsupported
  | .close _ => ()
  | .kqueueCreate => .error (.ofCode Code.unsupported)
  | .keventChange .. => .error Code.unsupported
  | .keventWait .. => .error Code.unsupported
  | .ringCreate .. => .error Code.unsupported
  | .ringExit _ => ()
  | .ringSubmit _ => .error Code.unsupported
  | .ringWait .. => .error Code.unsupported
  | .ringAdvance _ => ()
  | .hostAdd .. => Code.unsupported
  | .hostModify .. => Code.unsupported
  | .hostRemove _ => Code.unsupported

/-! ## Kernels -/

/-- A kernel: its states, its answers, its clock, and a bound on how often it still makes callers try again. -/
structure Kernel where
  State : Type
  answer : State → (c : Call) → Reply c × State
  clock : State → Int
  patience : State → Nat
  patience_lt : ∀ s c, retried c (answer s c).1 = true → patience (answer s c).2 < patience s
  patience_le : ∀ s c, c.isOfRingWait = true → patience (answer s c).2 ≤ patience s

/-- A call, its answer, and the clock when the answer came. -/
structure Exchange where
  call : Call
  reply : Reply call
  time : Int

end Vigil
