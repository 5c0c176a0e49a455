import Vigil.Buffer

/-!
# Readings

A `Reading` is a buffer with one cursor of a reader. The owner of the buffer edits it (`Buffer.Edit`), and the reader
moves its cursor (`Reading.Move`): to the first event, or to the next place. Whoever moves on is answered with the cursor
that was moved, or with a copy of it as it was (`Advance`). To move on at the end is the mistake of the reader: the cursor
leaves the committed slots then, and what it finds is whatever the slots behind them hold.
-/

namespace Vigil

/-- What the owner of a buffer does with it. -/
inductive Buffer.Edit where
  /-- Store records from a slot on. -/
  | write (i : Nat) (rs : List Record)
  /-- Commit that many slots. -/
  | commit (n : Nat)
  /-- Commit nothing. -/
  | clear
  deriving DecidableEq

/-- Carries out an edit. -/
def Buffer.edit (b : Buffer) : Edit → Buffer
  | .write i rs => b.write i rs
  | .commit n => b.commit n
  | .clear => b.clear

/-- Which cursor is the answer when one is moved on. -/
inductive Advance where
  /-- The one that was moved. -/
  | moved
  /-- A copy from before the move. -/
  | former
  deriving DecidableEq

/-- A buffer, and the cursor of its reader once there is one. -/
structure Reading where
  buffer : Buffer := Buffer.empty
  cursor : Option Buffer.Cursor := none

namespace Reading

/-- What a reader does with its cursor. -/
inductive Move where
  /-- Place it at the first event. -/
  | start
  /-- Move it to the next place. -/
  | advance (a : Advance)
  deriving DecidableEq

/-- What happens to a buffer and a cursor. -/
inductive Step where
  | edit (e : Buffer.Edit)
  | move (m : Move)
  deriving DecidableEq

/-- Moves the cursor, once there is one. -/
def move (s : Reading) : Move → Option Buffer.Cursor × Reading
  | .start => (some s.buffer.start, { s with cursor := some s.buffer.start })
  | .advance a =>
    let next := s.cursor.map s.buffer.next
    (match a with
      | .moved => next
      | .former => s.cursor,
      { s with cursor := next })

/-- Lets something happen. -/
def step (s : Reading) : Step → Reading
  | .edit e => { s with buffer := s.buffer.edit e }
  | .move m => (s.move m).2

/-- Lets several things happen, in order. -/
def run (s : Reading) (xs : List Step) : Reading := xs.foldl step s

/-- The event at the cursor, unless it is at the end or was never placed. -/
def event? (s : Reading) : Option Event := s.cursor.bind s.buffer.get?

/-- Whether there is nothing more to read. -/
def isDone (s : Reading) : Bool := s.cursor.all s.buffer.atEnd

end Reading

end Vigil
