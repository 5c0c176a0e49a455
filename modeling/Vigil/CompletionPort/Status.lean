/-!
# Two families of status codes

Requests end with a status (`NtStatus`), calls fail with an error (`WinError`). Each family has a
classification (`NtStatus.kind`, `WinError.kind`) and a conversion to the other (`NtStatus.toError`,
`WinError.toStatus`); a code without a counterpart becomes the other family's code for failures that it cannot name.
-/

namespace Vigil.CompletionPort

/-- The status of a request. -/
abbrev NtStatus := Int32

/-- The error of a call; zero for none. -/
abbrev WinError := UInt32

/-- What a code says about a request. -/
inductive IoStatus where
  | success
  | pending
  | cancelled
  | notFound
  | failed
  deriving DecidableEq

namespace IoStatus

/-- The name of a class. -/
def name : IoStatus → String
  | success => "success"
  | pending => "pending"
  | cancelled => "cancelled"
  | notFound => "not-found"
  | failed => "failed"

/-- The class with a given number. -/
def ofIndex? : Int → Option IoStatus
  | 0 => some success
  | 1 => some pending
  | 2 => some cancelled
  | 3 => some notFound
  | 4 => some failed
  | _ => none

/-- The name of the class with a given number. -/
def nameOfIndex (n : Int) : String := ((ofIndex? n).map name).getD "unknown"

end IoStatus

/-! ## Codes -/

namespace NtStatus

def success : NtStatus := 0
def pending : NtStatus := 0x103
def invalidHandle : NtStatus := -1073741816
def unexpected : NtStatus := -1073741591
def cancelled : NtStatus := -1073741536
def pipeBroken : NtStatus := -1073741493
def notFound : NtStatus := -1073741275

end NtStatus

namespace WinError

def success : WinError := 0
def invalidHandle : WinError := 6
def brokenPipe : WinError := 109
def timeout : WinError := 258
def unnamed : WinError := 317
def aborted : WinError := 995
def pending : WinError := 997
def notFound : WinError := 1168

end WinError

/-! ## Classification and conversion -/

/-- The class of a status. -/
def NtStatus.kind (s : NtStatus) : IoStatus :=
  if s = success then .success
  else if s = pending then .pending
  else if s = cancelled then .cancelled
  else if s = notFound then .notFound
  else .failed

/-- The class of an error. -/
def WinError.kind (e : WinError) : IoStatus :=
  if e = success then .success
  else if e = pending then .pending
  else if e = aborted then .cancelled
  else if e = notFound then .notFound
  else .failed

/-- The error that stands for a status, if there is one. -/
def NtStatus.toError? (s : NtStatus) : Option WinError :=
  if s = success then some WinError.success
  else if s = pending then some WinError.pending
  else if s = cancelled then some WinError.aborted
  else if s = notFound then some WinError.notFound
  else if s = invalidHandle then some WinError.invalidHandle
  else if s = pipeBroken then some WinError.brokenPipe
  else none

/-- The error that stands for a status. -/
def NtStatus.toError (s : NtStatus) : WinError := s.toError?.getD WinError.unnamed

/-- The status that stands for an error, if there is one. -/
def WinError.toStatus? (e : WinError) : Option NtStatus :=
  if e = success then some NtStatus.success
  else if e = pending then some NtStatus.pending
  else if e = aborted then some NtStatus.cancelled
  else if e = notFound then some NtStatus.notFound
  else if e = invalidHandle then some NtStatus.invalidHandle
  else if e = brokenPipe then some NtStatus.pipeBroken
  else none

/-- The status that stands for an error. -/
def WinError.toStatus (e : WinError) : NtStatus := e.toStatus?.getD NtStatus.unexpected

end Vigil.CompletionPort
