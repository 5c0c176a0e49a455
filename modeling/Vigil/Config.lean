import Vigil.Logging

/-!
# Configuration

A `Config` is read from environment variables, each of which decides one field (`Config.ofEnvironment`). A number is
read by `readNumber?`: blanks, a sign, and digits to the end of the text.
-/

namespace Vigil

/-- How waits are to be woken: by the kernel's own means, or through a pair of sockets. -/
inductive WakeStrategy where
  | native
  | pipe
  deriving DecidableEq

namespace WakeStrategy

/-- The name of a strategy. -/
def name : WakeStrategy → String
  | native => "native"
  | pipe => "pipe"

/-- The strategy that a text asks for; an empty text leaves the choice. -/
def ofName? (s : String) : Option WakeStrategy :=
  if s = "" ∨ s = native.name then some native
  else if s = pipe.name then some pipe
  else none

end WakeStrategy

/-! ## Numbers -/

/-- Blanks that may stand before a number: space, and the controls from tab to carriage return. -/
def isBlank (c : Char) : Bool := c == ' ' || ('\t' ≤ c && c ≤ '\r')

/-- The value of decimal digits. -/
def digitsValue (cs : List Char) : Nat := cs.foldl (fun n c => 10 * n + (c.toNat - '0'.toNat)) 0

/-- The largest number that is read without saturating. -/
def maxNumber : Nat := 18446744073709551615

/-- Takes a leading sign off a text, and says whether it was a minus. -/
def splitSign : List Char → Bool × List Char
  | '-' :: cs => (true, cs)
  | '+' :: cs => (false, cs)
  | cs => (false, cs)

/-- The number that a value stands for, behind a sign. A minus negates modulo `maxNumber + 1`; what does not fit is
`maxNumber`, whatever the sign. -/
def signedValue (negative : Bool) (n : Nat) : Nat :=
  if maxNumber < n then maxNumber
  else if negative then (maxNumber + 1 - n) % (maxNumber + 1)
  else n

/-- Reads a number that takes up the whole text. -/
def readNumber? (s : String) : Option Nat :=
  let (negative, digits) := splitSign (s.toList.dropWhile isBlank)
  if !digits.isEmpty && digits.all Char.isDigit then some (signedValue negative (digitsValue digits)) else none

/-! ## The environment -/

/-- The variables of a process. -/
abbrev Environment := String → Option String

/-- What a process can be told. -/
structure Config where
  debug : Bool := false
  indent : UInt32 := 0
  /-- The backend to try first; empty for none. -/
  backend : String := ""
  wake : WakeStrategy := .native
  deriving DecidableEq

namespace Config

/-- Whether messages are written. -/
def debugOf : Option String → Bool
  | none => false
  | some s => s ≠ "" && s ≠ "0"

/-- How deep messages are indented. -/
def indentOf (v : Option String) : UInt32 := UInt32.ofNat ((v.bind readNumber?).getD 0)

/-- How waits are woken. -/
def wakeOf (v : Option String) : WakeStrategy := (v.bind WakeStrategy.ofName?).getD .native

/-- The configuration that an environment gives. -/
def ofEnvironment (env : Environment) : Config where
  debug := debugOf (env "READYQ_DEBUG")
  indent := indentOf (env "READYQ_DEBUG_INDENT")
  backend := (env "READYQ_BACKEND").getD ""
  wake := wakeOf (env "READYQ_NOTIFY")

/-- How a thread's messages are written. -/
def logging (c : Config) (thread : UInt64) : Logging := ⟨c.debug, c.indent, thread⟩

/-- The complaint about an environment, if it asks for a way of waking that does not exist. -/
def complaint (env : Environment) : Option String :=
  match env "READYQ_NOTIFY" with
  | none => none
  | some s =>
    if (WakeStrategy.ofName? s).isSome then none
    else some ("readyq: ignoring unknown READYQ_NOTIFY value '" ++ s ++ "'\n")

end Config

end Vigil
