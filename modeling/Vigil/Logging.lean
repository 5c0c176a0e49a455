/-!
# Lines of a log

A `Logging` says whether messages are written, and what stands in front of each of them (`Logging.line`). Whoever has a
message asks for debugging to be on before it is put together, and it is asked for again when the line is written.
-/

namespace Vigil

/-- Whether lines are written, how deep they are indented, and the thread that they name. -/
structure Logging where
  enabled : Bool := false
  indent : UInt32 := 0
  thread : UInt64 := 1

namespace Logging

/-- A message as it is written. -/
def line (l : Logging) (message : String) : String :=
  if l.enabled then
    "".pushn '\t' l.indent.toNat ++ "[thread " ++ toString l.thread ++ "] " ++ message
  else
    ""

end Logging

end Vigil
