import Vigil.Logging
import Vigil.Note

/-!
# Processes

A `Process` is what a program has of its own, beside the kernel: the settings of its log, the lines that it wrote, and
the number of the last error. Whoever has something to tell asks for the settings first (`Process.noted`). A line is
written by calls like any others, so the number of the last error may be any other one behind it
(`Process.disturb`): a program that answers with the number has to read it before it tells anything.
-/

namespace Vigil

/-- The settings of the log, what was written to it, and the number of the last error. -/
structure Process where
  logging : Logging := {}
  /-- The lines that were written, the oldest first. -/
  lines : List String := []
  errno : Code := Code.success
  /-- The number of the last error once a line is written, given the line and the number before. -/
  disturb : String → Code → Code := fun _ code => code

namespace Process

/-- Writes a line. -/
def write (p : Process) (line : String) : Process :=
  { p with lines := p.lines ++ [line], errno := p.disturb line p.errno }

/-- Writes a note as a line, if debugging is on. -/
def noted (p : Process) (n : Note) : Process :=
  if p.logging.enabled then p.write (p.logging.line (n.text ++ "\n")) else p

/-- Takes down the number of an error, if there was one. -/
def failed (p : Process) : Option Code → Process
  | some code => { p with errno := code }
  | none => p

end Process

end Vigil
