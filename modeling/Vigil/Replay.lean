import Vigil.Script
import Vigil.World

/-!
# Scripted kernels

A `Replay` answers each call from a script: the next entry for the service that the call uses, or the service's default
answer when there is none. `Replay.kernel` is the kernel that this makes; its patience is the length of the script,
because no default answer makes a caller try again (`retried_respond_none`).
-/

namespace Vigil

/-! ## Services -/

/-- The services of a kernel. Several calls may use one service. -/
inductive Service where
  | epollCreate
  | epollControl
  | epollWait
  | eventfd
  | socketpair
  | fcntl
  | read
  | write
  | close
  | kqueueCreate
  | kevent
  | ringCreate
  | ringExit
  | ringSubmit
  | ringWait
  | ringAdvance
  | hostAdd
  | hostModify
  | hostRemove
  deriving DecidableEq

/-- Whether a service returns a count of bytes, which has 64 bits; all other services return 32 bits. -/
def Service.countsBytes : Service → Bool
  | read => true
  | write => true
  | _ => false

/-- Whether a service that fails leaves its error behind as the last one. The calls of a ring return theirs, and a
backend outside this library answers a code. -/
def Service.leavesError : Service → Bool
  | ringCreate => false
  | ringExit => false
  | ringSubmit => false
  | ringWait => false
  | ringAdvance => false
  | hostAdd => false
  | hostModify => false
  | hostRemove => false
  | _ => true

/-- The service that a call uses. -/
def Call.service : Call → Service
  | epollCreate _ => .epollCreate
  | epollControl .. => .epollControl
  | epollWait .. => .epollWait
  | eventfd .. => .eventfd
  | socketpair => .socketpair
  | getFlags _ => .fcntl
  | setFlags .. => .fcntl
  | getDescriptorFlags _ => .fcntl
  | setDescriptorFlags .. => .fcntl
  | read .. => .read
  | write .. => .write
  | close _ => .close
  | kqueueCreate => .kqueueCreate
  | keventChange .. => .kevent
  | keventWait .. => .kevent
  | ringCreate .. => .ringCreate
  | ringExit _ => .ringExit
  | ringSubmit _ => .ringSubmit
  | ringWait .. => .ringWait
  | ringAdvance _ => .ringAdvance
  | hostAdd .. => .hostAdd
  | hostModify .. => .hostModify
  | hostRemove _ => .hostRemove

/-! ## Entries -/

/-- One scripted answer. Each service looks at the parts that it knows. -/
structure Entry where
  /-- The error to fail with. -/
  error : Option Code := none
  /-- The number to return, with nothing stored. -/
  value : Option Int := none
  /-- How long the call takes. -/
  elapsed : Int := 0
  polled : List PollRecord := []
  fired : List Kevent := []
  /-- Flags and data of the receipts, in place of receipts that report success. -/
  receipts : Option (List (UInt16 × Int64)) := none
  completions : List Completion := []
  features : UInt32 := 256

/-- The entry with its number cut to the width of what a service returns. -/
def Entry.fitted (e : Entry) (s : Service) : Entry :=
  { e with value := e.value.map fun n => if s.countsBytes then n.toInt64.toInt else n.toInt32.toInt }

/-! ## Answers -/

/-- A script, with the clock, the next descriptor to hand out, and the last error. -/
structure Replay where
  script : Script Service Entry := []
  clock : Int := 0
  nextFd : Descriptor := 100
  lastError : Code := Code.success

namespace Replay

/-- The error of a call that has nothing to return but success; a number other than zero fails with the last error. -/
def check (r : Replay) (e : Entry) : Fallible Unit :=
  match e.error with
  | some code => .error code
  | none => if e.value.getD 0 = 0 then .ok () else .error r.lastError

/-- What an entry states, its error or its number, or else the usual answer. A negative number fails with the last
error. -/
def stated {α : Type} (r : Replay) (e : Entry) (ofNumber : Nat → α) (usual : α) : Fallible α :=
  match e.error, e.value with
  | some code, _ => .error code
  | none, some n => if n < 0 then .error r.lastError else .ok (ofNumber n.toNat)
  | none, none => .ok usual

/-- What an entry for a call of a ring leads to. Such calls return their error as a negative number, so that an error
number that is not positive is no failure; nothing is done all the same. -/
def ringStated {α : Type} (e : Entry) (nothing usual : α) : Fallible α :=
  match e.error with
  | some code => if 0 < code then .error code else .ok nothing
  | none => .ok usual

/-- Hands out a descriptor: the number of the entry, or else the next one. A negative number is a refusal with the last
error. -/
def handOut (r : Replay) (e : Entry) : Except Refusal Descriptor × Replay :=
  match e.error, e.value.map Int.toInt32 with
  | some code, _ => (.error (.ofCode code), r)
  | none, some fd => (if h : fd < 0 then .error ⟨r.lastError, fd, h⟩ else .ok fd, r)
  | none, none => (.ok r.nextFd, { r with nextFd := r.nextFd + 1 })

/-- The receipts for changes. -/
def receiptsFor (e : Entry) (changes : List Kevent) : List Kevent :=
  match e.receipts with
  | none => changes.map fun k => { k with flags := Kevent.error, data := 0 }
  | some rs => changes.zipWith (fun k r => { k with flags := r.1, data := r.2 }) rs

/-- The call takes its time. -/
def pass (r : Replay) (e : Entry) : Replay := { r with clock := r.clock + e.elapsed }

/-- What a call is answered with, given the entry for it if there is one. -/
def respond (r : Replay) (given : Option Entry) : (c : Call) → Reply c × Replay
  | .epollCreate _ => r.handOut (given.getD {})
  | .epollControl .. => (r.check (given.getD {}), r)
  | .epollWait _ limit _ =>
    let e := given.getD {}
    (r.stated e .kept (.ofList (e.polled.take limit)), r.pass e)
  | .eventfd .. => r.handOut (given.getD {})
  | .socketpair =>
    match r.check (given.getD {}) with
    | .error code => (.error code, r)
    | .ok _ => (.ok (r.nextFd, r.nextFd + 1), { r with nextFd := r.nextFd + 2 })
  | .getFlags _ => (r.stated (given.getD {}) Int32.ofNat 2, r)
  | .setFlags .. => (r.check (given.getD {}), r)
  | .getDescriptorFlags _ => (r.stated (given.getD {}) Int32.ofNat 0, r)
  | .setDescriptorFlags .. => (r.check (given.getD {}), r)
  | .read .. =>
    match given with
    | none => (.error Code.wouldBlock, { r with lastError := Code.wouldBlock })
    | some { error := none, value := none, .. } =>
      (.error Code.wouldBlock, { r with lastError := Code.wouldBlock })
    | some e => (r.stated e id 0, r)
  | .write _ bytes => (r.stated (given.getD {}) id bytes.length, r)
  | .close _ => ((), r)
  | .kqueueCreate => r.handOut (given.getD {})
  | .keventChange _ changes =>
    let e := given.getD {}
    (r.stated e (fun _ => []) (receiptsFor e changes), r)
  | .keventWait _ limit _ =>
    let e := given.getD {}
    (r.stated e .kept (.ofList (e.fired.take limit)), r.pass e)
  | .ringCreate .. =>
    let e := given.getD {}
    match e.error with
    | some _ => (ringStated e none none, r)
    | none => (.ok (some ⟨r.nextFd, e.features⟩), { r with nextFd := r.nextFd + 1 })
  | .ringExit _ => ((), r)
  | .ringSubmit requests => (ringStated (given.getD {}) 0 requests.length, r)
  | .ringWait queued _ =>
    match given with
    | none => (if 0 < queued then .ok [] else .error Code.timerExpired, r)
    | some e => (ringStated e [] e.completions, r.pass e)
  | .ringAdvance _ => ((), r)
  | .hostAdd .. => (((given.getD {}).value.getD 0).toInt32, r)
  | .hostModify .. => (((given.getD {}).value.getD 0).toInt32, r)
  | .hostRemove _ => (((given.getD {}).value.getD 0).toInt32, r)

/-- The last error after an entry for a service was used. -/
def errorAfter (r : Replay) (s : Service) (e : Entry) : Code :=
  if s.leavesError then e.error.getD r.lastError else r.lastError

/-- Answers a call. -/
def step (r : Replay) (c : Call) : Reply c × Replay :=
  match Script.next? c.service r.script with
  | none => r.respond none c
  | some (e, script) =>
    let r := { r with script := script, lastError := r.errorAfter c.service e }
    r.respond (some (e.fitted c.service)) c

/-! ## Laws -/

theorem script_respond (r : Replay) (given : Option Entry) (c : Call) : (r.respond given c).2.script = r.script := by
  cases c <;> simp only [respond, handOut, pass] <;> (try split) <;> (try split) <;> rfl

/-- Default answers do not make callers try again. -/
theorem retried_respond_none (r : Replay) (c : Call) : retried c (r.respond none c).1 = false := by
  cases c with
  | ringWait queued timeout =>
    simp only [respond, retried]
    by_cases h : 0 < queued
    · have : queued ≠ 0 := by omega
      simp [h, this]
    · simp only [h, if_false]
      rfl
  | _ => rfl

theorem length_step_le (r : Replay) (c : Call) : (r.step c).2.script.length ≤ r.script.length := by
  unfold step
  split
  · simp [script_respond]
  · rename_i h
    have := Script.length_next? h
    simp only [script_respond]
    omega

theorem length_step_lt (r : Replay) (c : Call) (h : retried c (r.step c).1 = true) :
    (r.step c).2.script.length < r.script.length := by
  unfold step at h ⊢
  split
  · rename_i hn
    simp [hn, retried_respond_none] at h
  · rename_i hs
    have := Script.length_next? hs
    simp only [script_respond]
    omega

/-- The kernel of a script. -/
def kernel : Kernel where
  State := Replay
  answer := step
  clock := Replay.clock
  patience r := r.script.length
  patience_lt := length_step_lt
  patience_le r c _ := length_step_le r c

/-- A world that begins with a script. -/
def world (r : Replay) : World kernel := { kernel := r }

/-- Puts a new script in the place of what is left of the old one. -/
def load (script : Script Service Entry) : Sys kernel Unit := fun w =>
  let r : Replay := w.kernel
  ((), { w with kernel := { r with script := script } })

end Replay

end Vigil
