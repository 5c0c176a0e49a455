import Vigil.Code.Text
import Vigil.Kernel
import Vigil.Kind

/-!
# Notes

What is worth telling is noted as a value (`Note`), with the words for it (`Note.text`).
-/

namespace Vigil

/-! ## Notes -/

/-- Something that a backend attempts, and that may fail. -/
inductive Attempt where
  | epollCreate
  | epollControl (op : Control) (fd : Descriptor)
  | epollDelete (fd : Descriptor)
  | epollWait
  | ringCreate
  | ringSubmit
  | ringWait
  | kqueueCreate
  | closeOnExec
  | keventChange
  | keventWait
  | attach
  | detach
  | wake
  deriving DecidableEq

/-- What a backend says about itself. -/
inductive Message where
  | opened (queue : Descriptor)
  | ready (depth : UInt32)
  | lacksTimedWait
  | dropped (queue : Descriptor)
  | register (op : Control) (queue : Option Descriptor) (fd : Descriptor) (event : Event) (mode : Mode)
  | remove (queue : Option Descriptor) (fd : Descriptor)
  | wait (queue : Descriptor) (timeout : Timeout)
  | fired (queue : Descriptor) (count : Nat)
  | wake (queue : Descriptor)
  | failed (what : Attempt) (code : Code)
  | changeFailed (change : Kevent) (code : Code)
  deriving DecidableEq

/-- A step in the making of a wake-up channel that may fail. -/
inductive ChannelStep where
  | sockets
  | flags (fd : Descriptor)
  | counter
  deriving DecidableEq

/-- Something worth telling. -/
inductive Note where
  | trying (kind : Kind)
  | unavailable (kind : Kind) (code : Code)
  | notBuilt (name : String)
  | noneAvailable
  | channelFailed (step : ChannelStep) (code : Code)
  | backend (kind : Kind) (message : Message)
  deriving DecidableEq

/-! ## Wording -/

/-- The number of a control operation. -/
def Control.number : Control → Nat
  | add => 1
  | delete => 2
  | modify => 3

/-- The word for a control operation. -/
def Control.word : Control → String
  | add => "add"
  | delete => "remove"
  | modify => "modify"

/-- A truth value as a digit. -/
def digit (b : Bool) : String := if b then "1" else "0"

namespace Attempt

/-- The words for an attempt. -/
def text : Attempt → String
  | epollCreate => "epoll_create1"
  | epollControl op fd => s!"epoll_ctl op={op.number} fd={fd.toInt}"
  | epollDelete fd => s!"epoll_ctl del fd={fd.toInt}"
  | epollWait => "epoll_wait"
  | ringCreate => "io_uring_queue_init"
  | ringSubmit => "io_uring_submit"
  | ringWait => "io_uring_wait_cqe_timeout"
  | kqueueCreate => "kqueue()"
  | closeOnExec => "fcntl(F_SETFD)"
  | keventChange => "kevent(changes)"
  | keventWait => "kevent wait"
  | attach => "registering notifier"
  | detach => "detaching notifier"
  | wake => "notify"

end Attempt

/-- A descriptor under its label. -/
def Kind.labelled (k : Kind) (queue : Descriptor) : String := s!"{k.label}={queue.toInt}"

/-- A descriptor under its label and a blank behind it, or nothing. -/
def Kind.labelledOr (k : Kind) : Option Descriptor → String
  | some queue => k.labelled queue ++ " "
  | none => ""

/-- The text of a backend's message. -/
def Message.text (k : Kind) : Message → String
  | opened q => "new " ++ k.labelled q
  | ready n => s!"backend initialized (depth={n})"
  | lacksTimedWait => "kernel lacks IORING_FEAT_EXT_ARG"
  | dropped q => "drop " ++ k.labelled q
  | register op q fd e mode =>
    op.word ++ " " ++ k.labelledOr q ++ s!"fd={fd.toInt} key={e.key} " ++
      "readable=" ++ digit e.readable ++ " writable=" ++ digit e.writable ++ " mode=" ++ mode.name
  | remove q fd => "remove " ++ k.labelledOr q ++ s!"fd={fd.toInt}"
  | wait q timeout => "wait " ++ k.labelled q ++ " timeout_ns=" ++ toString (timeout.getD (-1))
  | fired q n => "new events " ++ k.labelled q ++ s!" res={n}"
  | wake q => "notify " ++ k.labelled q
  | failed what c => what.text ++ " failed: " ++ c.described
  | changeFailed e c => s!"change on ident {e.ident} filter {e.filter.toInt} failed: " ++ c.described

/-- The words for a step in the making of a channel. -/
def ChannelStep.text : ChannelStep → String
  | sockets => "socketpair"
  | flags fd => s!"fcntl on fd {fd.toInt}"
  | counter => "eventfd"

/-- The text of a note, without the end of the line. -/
def Note.text : Note → String
  | trying k => "readyq: initializing " ++ k.name ++ " backend"
  | unavailable k c => "readyq: " ++ k.name ++ " backend unavailable: " ++ c.described
  | notBuilt name => "readyq: backend " ++ name ++ " is not compiled in"
  | noneAvailable => "readyq: no backend available"
  | channelFailed step c => "readyq(notify): " ++ step.text ++ " failed: " ++ c.described
  | backend k m => "readyq(" ++ k.name ++ "): " ++ m.text k

end Vigil
