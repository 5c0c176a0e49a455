import Vigil.Code
import Vigil.Record

/-!
# Submission and completion rings

A `Ring` holds requests that wait to be submitted, no more than its capacity, and completions that wait to be
consumed. Requests and completions are tied together by a `Token`.
-/

namespace Vigil

/-- What a request is submitted under; its completions carry it back. -/
abbrev Token := UInt64

/-- The number of an open file, as the kernel hands it out; negative when there is none. -/
abbrev Descriptor := Int32

/-- No open file. -/
def noDescriptor : Descriptor := -1

/-- A request to the ring. -/
inductive Submission where
  /-- Complete once, when a condition of the mask holds. -/
  | pollAdd (fd : Descriptor) (mask : Mask) (token : Token)
  /-- Complete each time that a condition of the mask begins to hold. -/
  | pollMultishot (fd : Descriptor) (mask : Mask) (token : Token)
  /-- Cancel the request under the target token. -/
  | pollRemove (target token : Token)
  /-- Complete at once. -/
  | nop (token : Token)
  deriving DecidableEq

/-- The token that a request is submitted under. -/
def Submission.token : Submission → Token
  | pollAdd _ _ t => t
  | pollMultishot _ _ t => t
  | pollRemove _ t => t
  | nop t => t

/-- The token of a request that watches something. -/
def Submission.pollToken? : Submission → Option Token
  | pollAdd _ _ t => some t
  | pollMultishot _ _ t => some t
  | _ => none

/-- The token whose request is to be canceled. -/
def Submission.target? : Submission → Option Token
  | pollRemove t _ => some t
  | _ => none

/-- The tokens of the requests that watch something, in order. -/
def armedTokens (ss : List Submission) : List Token := ss.filterMap Submission.pollToken?

/-- The tokens whose requests are to be canceled, in order. -/
def targets (ss : List Submission) : List Token := ss.filterMap Submission.target?

/-- The end of a request, or one of its results if more will come. -/
structure Completion where
  token : Token
  result : Int32
  more : Bool
  deriving DecidableEq

/-- What the kernel says about a ring that it created. -/
structure RingOffer where
  fd : Descriptor := 0
  features : UInt32 := 0
  deriving DecidableEq

/-- The two queues of a ring. -/
structure Ring where
  capacity : Nat := 0
  pending : List Submission := []
  completed : List Completion := []
  deriving DecidableEq, Inhabited

namespace Ring

/-- Whether a request can be queued. -/
def hasRoom (r : Ring) : Bool := r.pending.length < r.capacity

/-- Queues a request. -/
def push (r : Ring) (s : Submission) : Ring := { r with pending := r.pending ++ [s] }

/-- The kernel took the oldest requests. -/
def taken (r : Ring) (n : Nat) : Ring := { r with pending := r.pending.drop n }

/-- The kernel added completions. -/
def arrive (r : Ring) (cs : List Completion) : Ring := { r with completed := r.completed ++ cs }

@[simp] theorem arrive_nil (r : Ring) : r.arrive [] = r := by
  simp [arrive]

/-- The oldest completions are consumed. -/
def advance (r : Ring) (n : Nat) : Ring := { r with completed := r.completed.drop n }

end Ring

end Vigil
