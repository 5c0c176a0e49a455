/-!
# Durations and deadlines

Durations are whole nanoseconds. Waiting calls take them in two forms: a pair of seconds and nanoseconds
(`Timespec.ofNanos`) and milliseconds rounded up (`millisUp`). A `Deadline` turns a timeout into a fixed point of the
clock, so that an interrupted wait goes on with the time that is left.
-/

namespace Vigil

/-- Nanoseconds in a second. -/
def nanosPerSecond : Int := 1000000000

/-- Nanoseconds in a millisecond. -/
def nanosPerMilli : Int := 1000000

/-- A duration as whole seconds and the nanoseconds beyond them. -/
structure Timespec where
  seconds : Int
  nanos : Int
  deriving DecidableEq

/-- A negative duration counts as none. -/
def Timespec.ofNanos (d : Int) : Timespec :=
  let d := max d 0
  ⟨d / nanosPerSecond, d % nanosPerSecond⟩

/-- The longest duration in milliseconds that a waiting call takes. -/
def maxMillis : Int := 2147483647

/-- Whole milliseconds that are not shorter than the duration, up to `maxMillis`. -/
def millisUp (d : Int) : Int :=
  if d ≤ 0 then 0 else min ((d + nanosPerMilli - 1) / nanosPerMilli) maxMillis

/-- How long to wait; `none` waits for ever. -/
abbrev Timeout := Option Int

/-- The longest duration: what is left of a wait that never ends. -/
def maxNanos : Int := 9223372036854775807

/-- A point of the clock at which a wait ends, if it does. -/
structure Deadline where
  finish : Option Int
  deriving DecidableEq

namespace Deadline

/-- The deadline of a wait that starts at `now`. -/
def after (now : Int) (timeout : Timeout) : Deadline := ⟨timeout.map (now + ·)⟩

/-- Whether the wait never ends. -/
def isInfinite (d : Deadline) : Bool := d.finish.isNone

/-- The time left, never negative. -/
def remaining (d : Deadline) (now : Int) : Int :=
  match d.finish with
  | none => maxNanos
  | some t => max (t - now) 0

/-- The time left in milliseconds, as a call takes it that waits for ever on `-1`. -/
def millis (d : Deadline) (now : Int) : Int :=
  if d.isInfinite then -1 else millisUp (d.remaining now)

/-- The time left as seconds and nanoseconds, if the wait ends. -/
def timespec (d : Deadline) (now : Int) : Option Timespec :=
  if d.isInfinite then none else some (Timespec.ofNanos (d.remaining now))

end Deadline

end Vigil
