import Vigil.Event

/-!
# Raw records

The kernel reports readiness in two forms: a bit mask under a key (`PollRecord`), and a fired filter (`Kevent`). Both
report an `Event` (`Record.event`), and the same bits and filters express interest (`Event.interest`,
`Event.changes`). A wait hands records back in a `Batch`.
-/

namespace Vigil

/-! ## Bit masks -/

/-- A bit mask of the poll family: conditions in the low bits, modes in the high ones. -/
abbrev Mask := UInt32

namespace Mask

def input : Mask := 0x1
def priority : Mask := 0x2
def output : Mask := 0x4
def error : Mask := 0x8
def hangup : Mask := 0x10
def peerHangup : Mask := 0x2000
def oneshot : Mask := 0x40000000
def edge : Mask := 0x80000000

/-- Conditions asked for by interest in reading. -/
def readInterest : Mask := input ||| peerHangup ||| priority

/-- Conditions under which a read does not block. -/
def readReady : Mask := input ||| peerHangup ||| priority ||| hangup ||| error

/-- Conditions under which a write does not block. -/
def writeReady : Mask := output ||| hangup ||| error

end Mask

/-- The conditions that an event asks a poll request for. -/
def Event.conditions (e : Event) : Mask :=
  (if e.readable then Mask.readInterest else 0) ||| (if e.writable then Mask.output else 0)

/-- Only an event without a direction asks for no condition. -/
theorem Event.conditions_eq_zero {e : Event} : e.conditions = 0 ↔ e.isAny = false := by
  have h : ∀ readable writable : Bool,
      (Event.conditions ⟨0, readable, writable⟩ = 0 ↔ (readable || writable) = false) := by decide
  exact h e.readable e.writable

/-- The bits of a mode; without any, a registration is level-triggered. -/
def Mode.bits : Mode → Mask
  | .oneshot => Mask.oneshot
  | .level => 0
  | .edge => Mask.edge
  | .edgeOneshot => Mask.edge ||| Mask.oneshot
  | .unknown => 0

/-- The conditions that an event asks an entry of a poll set for, with the bits of a mode. Poll sets and poll requests
state their conditions each for themselves. -/
def Event.interest (e : Event) (mode : Mode) : Mask :=
  (if e.readable then Mask.input ||| Mask.peerHangup ||| Mask.priority else 0) |||
    (if e.writable then Mask.output else 0) ||| mode.bits

/-- A poll set and a poll request are asked for the same conditions. -/
theorem Event.interest_eq (e : Event) (mode : Mode) : e.interest mode = e.conditions ||| mode.bits := rfl

/-- Conditions that hold for the handle registered under a key. -/
structure PollRecord where
  mask : Mask
  key : Key
  deriving DecidableEq

/-! ## Filters -/

/-- A filter record: a change to apply, its receipt, or a filter that fired. -/
structure Kevent where
  ident : UInt64
  filter : Int16
  flags : UInt16
  fflags : UInt32
  data : Int64
  udata : UInt64
  deriving DecidableEq

namespace Kevent

def read : Int16 := -1
def write : Int16 := -2
def vnode : Int16 := -4
def proc : Int16 := -5
def signal : Int16 := -6
def timer : Int16 := -7
def user : Int16 := -11

def add : UInt16 := 0x1
def delete : UInt16 := 0x2
def oneshot : UInt16 := 0x10
def clear : UInt16 := 0x20
def receipt : UInt16 := 0x40
def error : UInt16 := 0x4000
def endOfFile : UInt16 := 0x8000

/-- The trigger of a user filter, among the filter's own flags. -/
def trigger : UInt32 := 0x01000000

end Kevent

/-- The flags of a mode on a filter; a mode that does not exist fires once. -/
def Mode.flags : Mode → UInt16
  | .oneshot => Kevent.oneshot
  | .level => 0
  | .edge => Kevent.clear
  | .edgeOneshot => Kevent.oneshot ||| Kevent.clear
  | .unknown => Kevent.oneshot

/-! ## Records -/

/-- A record as the kernel stored it. -/
inductive Record where
  | poll (r : PollRecord)
  | filter (r : Kevent)
  deriving DecidableEq

namespace Record

/-- A slot that was never written. -/
def blank : Record := .poll ⟨0, 0⟩

instance : Inhabited Record := ⟨blank⟩

/-- The key under which the record's handle is registered. -/
def key : Record → Key
  | poll r => r.key
  | filter r => r.udata

/-- Whether the record belongs to the wake-up channel. -/
def isNotify (r : Record) : Bool := r.key == notifyKey

/-- The directions of a fired filter. Closing the reading end of a pipe wakes writers, but shows only on the read
filter, as end of file. -/
def ofFilter (r : Kevent) : Event :=
  if r.filter = Kevent.read then ⟨r.udata, true, r.flags &&& Kevent.endOfFile != 0⟩
  else if r.filter = Kevent.write then Event.writableOnly r.udata
  else if r.filter ∈ [Kevent.vnode, Kevent.proc, Kevent.signal, Kevent.timer] then Event.readableOnly r.udata
  else Event.none r.udata

/-- The event that a record reports. -/
def event : Record → Event
  | poll r => ⟨r.key, r.mask &&& Mask.readReady != 0, r.mask &&& Mask.writeReady != 0⟩
  | filter r => ofFilter r

end Record

/-! ## Batches -/

/-- What a wait hands back: records for the first slots, and the number of slots that it calls filled. As a rule the two
agree; a slot that is called filled without a record for it keeps what it held. -/
structure Batch (α : Type) where
  records : List α
  count : Nat
  deriving DecidableEq

namespace Batch

variable {α β : Type}

/-- A batch in which every slot that counts has its record. -/
def ofList (rs : List α) : Batch α := ⟨rs, rs.length⟩

/-- A batch without records, for slots that keep what they held. -/
def kept (n : Nat) : Batch α := ⟨[], n⟩

/-- The batch with another form of its records. -/
def map (f : α → β) (b : Batch α) : Batch β := ⟨b.records.map f, b.count⟩

theorem map_ofList (f : α → β) (rs : List α) : (ofList rs).map f = ofList (rs.map f) := by
  simp [map, ofList]

end Batch

end Vigil
