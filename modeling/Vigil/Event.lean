/-!
# Readiness events

- `Event`: the directions in which a registered handle is ready, or is to be watched, under its owner's key;
- `notifyKey`: the one key that owners must leave to the wake-up channel;
- `Mode`: how often a registration fires, with `Mode.ofIndex` for the numbering used on the wire.
-/

namespace Vigil

/-- The owner's name for a registration. -/
abbrev Key := UInt64

/-- The key of the wake-up channel. -/
def notifyKey : Key := 0xFFFFFFFFFFFFFFFF

/-- Readiness, or interest in it, under a key. -/
structure Event where
  key : Key := 0
  readable : Bool := false
  writable : Bool := false
  deriving DecidableEq, Inhabited

namespace Event

/-- Both directions. -/
def all (key : Key) : Event := ⟨key, true, true⟩

/-- Reading only. -/
def readableOnly (key : Key) : Event := ⟨key, true, false⟩

/-- Writing only. -/
def writableOnly (key : Key) : Event := ⟨key, false, true⟩

/-- No direction: the registration stays, but is not watched. -/
def none (key : Key) : Event := ⟨key, false, false⟩

/-- Whether some direction is set. -/
def isAny (e : Event) : Bool := e.readable || e.writable

end Event

/-- How often a registration fires. -/
inductive Mode where
  | oneshot
  | level
  | edge
  | edgeOneshot
  /-- A value that no mode has. -/
  | unknown
  deriving DecidableEq, Inhabited

namespace Mode

/-- The modes that exist. -/
def all : List Mode := [oneshot, level, edge, edgeOneshot]

/-- The mode with a given number; every other number is the unknown mode. -/
def ofIndex : Int → Mode
  | 0 => oneshot
  | 1 => level
  | 2 => edge
  | 3 => edgeOneshot
  | _ => unknown

/-- The name used in messages. -/
def name : Mode → String
  | oneshot => "oneshot"
  | level => "level"
  | edge => "edge"
  | edgeOneshot => "edge-oneshot"
  | unknown => "unknown"

/-- The mode with a given name. -/
def ofName? (s : String) : Option Mode := all.find? (·.name == s)

end Mode

end Vigil
