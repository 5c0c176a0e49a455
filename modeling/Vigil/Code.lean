/-!
# Result codes

Every fallible operation answers with a `Code`: `Code.success`, or the number of the error. The numbers are those of
Linux, on every platform.
-/

namespace Vigil

/-- The answer of an operation: zero, or the number of an error. -/
abbrev Code := Int32

namespace Code

def success : Code := 0
def noEntry : Code := 2
def interrupted : Code := 4
def wouldBlock : Code := 11
def busy : Code := 16
def alreadyExists : Code := 17
def invalid : Code := 22
def brokenPipe : Code := 32
def timerExpired : Code := 62
def unsupported : Code := 95
def canceled : Code := 125

/-- An error reported for one change that only says that its handle was closed in the meantime. -/
def isBenign (code : Int64) : Bool := code == 2 || code == 32

end Code

end Vigil
