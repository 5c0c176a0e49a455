import Vigil.Duration
import Vigil.CompletionPort.Basic

/-!
# Named constants

The values that the interface of completion queues gives names to, with those of durations and of the wake-up key.
-/

namespace Vigil.CompletionPort

/-- How a file is opened that must exist. -/
def fileOpen : UInt32 := 1

/-- Others may read a file that is open. -/
def shareRead : UInt32 := 1

/-- Others may write a file that is open. -/
def shareWrite : UInt32 := 2

/-- The right to wait for an object. -/
def synchronize : UInt32 := 0x00100000

/-- The timeout of a wait that never ends. -/
def infinite : UInt32 := 0xFFFFFFFF

/-- What a failed socket call returns. -/
def socketError : Int32 := -1

/-- Names and values. -/
def constants : List (String × Int) :=
  [("STATUS_SUCCESS", NtStatus.success.toInt), ("STATUS_PENDING", NtStatus.pending.toInt),
    ("STATUS_INVALID_HANDLE", NtStatus.invalidHandle.toInt),
    ("STATUS_UNEXPECTED_IO_ERROR", NtStatus.unexpected.toInt), ("STATUS_CANCELLED", NtStatus.cancelled.toInt),
    ("STATUS_PIPE_BROKEN", NtStatus.pipeBroken.toInt), ("STATUS_NOT_FOUND", NtStatus.notFound.toInt),
    ("ERROR_SUCCESS", WinError.success.toNat), ("ERROR_INVALID_HANDLE", WinError.invalidHandle.toNat),
    ("ERROR_BROKEN_PIPE", WinError.brokenPipe.toNat), ("WAIT_TIMEOUT", WinError.timeout.toNat),
    ("ERROR_MR_MID_NOT_FOUND", WinError.unnamed.toNat), ("ERROR_OPERATION_ABORTED", WinError.aborted.toNat),
    ("ERROR_IO_PENDING", WinError.pending.toNat), ("ERROR_NOT_FOUND", WinError.notFound.toNat),
    ("SOCKET_ERROR", socketError.toInt), ("SIO_BASE_HANDLE", baseQuery.toNat),
    ("SIO_BSP_HANDLE_POLL", pollQuery.toNat), ("FILE_OPEN", fileOpen.toNat), ("FILE_SHARE_READ", shareRead.toNat),
    ("FILE_SHARE_WRITE", shareWrite.toNat), ("SYNCHRONIZE", synchronize.toNat), ("INFINITE", infinite.toNat),
    ("INVALID_HANDLE_VALUE", invalidHandle.toNat), ("FILE_SKIP_COMPLETION_PORT_ON_SUCCESS", skipQueue.toNat),
    ("FILE_SKIP_SET_EVENT_ON_HANDLE", skipEvent.toNat), ("NS_PER_SECOND", nanosPerSecond),
    ("NS_PER_MILLISECOND", nanosPerMilli), ("kNotifyKey", notifyKey.toNat)]

end Vigil.CompletionPort
