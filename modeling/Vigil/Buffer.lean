import Vigil.Overwrite
import Vigil.Record

/-!
# The event buffer

A `Buffer` holds a fixed number of slots, of which a leading part is committed. A wait replaces what is committed
(`raw_fill`, `raw_fill_of_le`); slots beyond it keep old records. Readers move a `Cursor` over the committed records,
past those of the wake-up channel, and see the others as events (`events`). A cursor may outlive what was committed when
it was made: it reads on to the present end, and only its skipping knows the former one.
-/

namespace Vigil

/-- The number of slots of a buffer. -/
def Buffer.capacity : Nat := 1024

/-- Slots for records, and how many of them are committed. -/
structure Buffer where
  slots : List Record
  length : Nat
  length_slots : slots.length = Buffer.capacity
  length_le : length ≤ Buffer.capacity

namespace Buffer

/-- Blank slots, none of them committed. -/
def empty : Buffer := ⟨List.replicate capacity Record.blank, 0, List.length_replicate, Nat.zero_le _⟩

instance : Inhabited Buffer := ⟨empty⟩

/-! ## Writing -/

/-- Stores records from a slot on, without committing them. -/
def write (b : Buffer) (i : Nat) (rs : List Record) : Buffer :=
  { b with slots := overwrite b.slots i rs, length_slots := (length_overwrite _ _ _).trans b.length_slots }

/-- Commits the first `n` slots, or all of them. -/
def commit (b : Buffer) (n : Nat) : Buffer :=
  { b with length := min n capacity, length_le := Nat.min_le_right _ _ }

/-- Commits nothing. -/
def clear (b : Buffer) : Buffer := { b with length := 0, length_le := Nat.zero_le _ }

/-- Stores what a wait handed back, and commits the slots that it calls filled. -/
def fill (b : Buffer) (rs : Batch Record) : Buffer := (b.write 0 rs.records).commit rs.count

/-! ## Reading -/

/-- The committed records. -/
def raw (b : Buffer) : List Record := b.slots.take b.length

/-- Whether a wake-up is among the committed records. -/
def notified (b : Buffer) : Bool := b.raw.any Record.isNotify

@[simp] theorem length_raw (b : Buffer) : b.raw.length = b.length := by
  simp [raw, b.length_slots, b.length_le]

@[simp] theorem raw_clear (b : Buffer) : b.clear.raw = [] := rfl

theorem raw_commit (b : Buffer) (n : Nat) : (b.commit n).raw = b.slots.take n := by
  show b.slots.take (min n capacity) = _
  rw [← b.length_slots, ← List.take_eq_take_min]

/-- The committed records are new ones as far as the batch has any, and old ones behind them. -/
theorem raw_fill (b : Buffer) (rs : Batch Record) :
    (b.fill rs).raw = (overwrite b.slots 0 rs.records).take rs.count :=
  raw_commit _ _

/-- What is filled in with a record for every slot that counts replaces all that was committed, as far as there is
room. -/
theorem raw_fill_of_le (b : Buffer) {rs : Batch Record} (h : rs.count ≤ rs.records.length) :
    (b.fill rs).raw = (rs.records.take rs.count).take capacity := by
  rw [raw_fill]
  refine List.ext_getElem? fun j => ?_
  simp only [List.getElem?_take, getElem?_overwrite, b.length_slots]
  by_cases hj : j < rs.count
  · by_cases hc : j < capacity
    · have : j < rs.records.length := by omega
      simp [hc, hj, this]
    · have : b.slots[j]? = none := List.getElem?_eq_none (by rw [b.length_slots]; omega)
      simp [hc, this]
  · simp [hj]

theorem raw_fill_ofList (b : Buffer) (rs : List Record) : (b.fill (.ofList rs)).raw = rs.take capacity := by
  rw [b.raw_fill_of_le (Nat.le_refl _)]
  show (rs.take rs.length).take capacity = _
  rw [List.take_length]

/-! ## Cursors -/

/-- A place among the slots, and the place where the committed ones ended when the cursor was made. -/
structure Cursor where
  position : Nat
  stop : Nat
  deriving DecidableEq

/-- The first place, from `i` on, that does not hold a wake-up or that is `stop`; the records are those from `i` on. -/
def skip (stop : Nat) : List Record → Nat → Nat
  | [], i => i
  | r :: rs, i => if i != stop && r.isNotify then skip stop rs (i + 1) else i

/-- A place, moved past the wake-ups that stand there. -/
def settle (b : Buffer) (i stop : Nat) : Cursor := ⟨skip stop (b.slots.drop i) i, stop⟩

/-- The first event. -/
def start (b : Buffer) : Cursor := b.settle 0 b.length

/-- The place behind the last event. -/
def finish (b : Buffer) : Cursor := ⟨b.length, b.length⟩

/-- Two cursors are at the same place, wherever their ends are. -/
def Cursor.samePlace (c d : Cursor) : Bool := c.position == d.position

/-- Whether a cursor is where the committed slots end now. -/
def atEnd (b : Buffer) (c : Cursor) : Bool := c.samePlace b.finish

/-- The event at a cursor, unless it is at the end. -/
def get? (b : Buffer) (c : Cursor) : Option Event :=
  if b.atEnd c then none else (b.slots[c.position]?).map Record.event

/-- The next place. It is for the reader to stop at the end: nothing here does. -/
def next (b : Buffer) (c : Cursor) : Cursor := b.settle (c.position + 1) c.stop

/-- The events from a cursor on, at most `n` of them. -/
def walk (b : Buffer) : Nat → Cursor → List Event
  | 0, _ => []
  | n + 1, c =>
    match b.get? c with
    | none => []
    | some e => e :: b.walk n (b.next c)

/-- What readers see, from the first event to the last. -/
def events (b : Buffer) : List Event := b.walk b.length b.start

/-- The number of events. -/
def count (b : Buffer) : Nat := b.events.length

/-- Whether the first place is already the end. -/
def isEmpty (b : Buffer) : Bool := b.atEnd b.start

end Buffer

end Vigil
