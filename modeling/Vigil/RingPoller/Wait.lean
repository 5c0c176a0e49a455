import Vigil.Buffer
import Vigil.RingPoller.Basic

/-!
# Polling on a ring: waits

A wait consumes completions in order (`harvest`). A completion under the token of an armed request becomes a record
under the key that its registration has now; all others are dropped, except wake-ups. When nothing but dropped
completions arrived, the wait goes on for the time that is left (`wait`).
-/

namespace Vigil

namespace RingPoller

variable {K : Kernel}

/-! ## Consuming completions -/

/-- What one completion leads to: new tables, a record, and a registration to arm again. -/
structure Consumed where
  poller : RingPoller
  record : Option Record := none
  rearm : Option (Descriptor × Registration) := none

/-- The request of a registration has come to its end. -/
def disarm (p : RingPoller) (t : Token) (fd : Descriptor) (r : Registration) : RingPoller :=
  { p with owners := p.owners.erase t }.store fd r

/-- The record of a request's result; a failed request reports an error condition. -/
def recordOf (r : Registration) (result : Int32) : Record :=
  .poll ⟨if result < 0 then Mask.error else result.toUInt32, r.event.key⟩

/-- Consumes one completion. Edge interest has to keep firing, also when the kernel ends its request early. -/
def consume (p : RingPoller) (c : Completion) : Consumed :=
  if c.token = ignoreToken then
    ⟨p, none, none⟩
  else if c.token = wakeToken then
    ⟨p, some (.poll ⟨0, notifyKey⟩), none⟩
  else
    match p.owners.get? c.token with
    | none => ⟨p, none, none⟩
    | some fd =>
      match p.registrations.get? fd with
      | none => ⟨p, none, none⟩
      | some r =>
        let p := if c.more then p else p.disarm c.token fd r
        if c.result = -Code.canceled then
          ⟨p, none, none⟩
        else
          ⟨p, some (recordOf r c.result), if !c.more && r.mode = .edge then some (fd, r) else none⟩

/-- Arms a registration again, and hands its request to the kernel. -/
def renew (p : RingPoller) : Option (Descriptor × Registration) → Sys K RingPoller
  | none => pure p
  | some (fd, r) => do
    let p ← p.arm fd r
    let (_, p) ← p.submit
    pure p

/-- What a number of completions lead to: records, and how many of the completions were looked at. -/
structure Harvest where
  poller : RingPoller
  records : List Record
  seen : Nat

/-- Consumes completions in order, until there is no room for another record. -/
def reap : List Completion → Nat → RingPoller → Sys K Harvest
  | [], _, p => pure ⟨p, [], 0⟩
  | _ :: _, 0, p => pure ⟨p, [], 0⟩
  | c :: cs, room + 1, p => do
    let one := p.consume c
    let p ← one.poller.renew one.rearm
    let rest ← reap cs (if one.record.isSome then room else room + 1) p
    pure ⟨rest.poller, one.record.toList ++ rest.records, rest.seen + 1⟩

/-- Consumes what is queued, and gives its room back. -/
def harvest (p : RingPoller) : Sys K (RingPoller × List Record) := do
  let h ← reap p.ring.completed Buffer.capacity p
  call (.ringAdvance h.seen)
  pure ({ h.poller with ring := h.poller.ring.advance h.seen }, h.records)

/-! ## Waiting -/

/-- How far a wait has come. -/
inductive Progress where
  | waiting
  | ended (code : Code)
  | filled
  deriving DecidableEq

/-- A wait on its way. -/
structure Round where
  poller : RingPoller
  buffer : Buffer
  progress : Progress := .waiting

/-- What the kernel's answer leads to: completions are consumed, and some errors end the wait. -/
def Round.after (d : Deadline) (s : Round) : Fallible (List Completion) → Sys K Round
  | .error code =>
    if code = Code.interrupted then
      pure s
    else if code = Code.timerExpired then
      pure { s with buffer := s.buffer.clear, progress := .ended Code.success }
    else do
      note (.failed .ringWait code)
      pure { s with buffer := s.buffer.clear, progress := .ended code }
  | .ok cs => do
    let (p, records) ← { s.poller with ring := s.poller.ring.arrive cs }.harvest
    let left := d.remaining (← now)
    pure ⟨p, s.buffer.fill (.ofList records), if records.isEmpty && left ≠ 0 then .waiting else .filled⟩

/-- Asks the kernel for completions, with the time left. -/
def round (d : Deadline) (s : Round) : Sys K Round := do
  s.after d (← call (.ringWait s.poller.ring.completed.length (d.timespec (← now))))

/-- Goes on with a wait until it has come to its end. -/
def rounds (d : Deadline) (s : Round) : Sys K Round := do
  persist (·.progress == .waiting) (round d) ((← patience) + 2) s

/-- Waits until something fires, the time is over or a wake-up arrives, and replaces what is in the buffer. -/
def wait (p : RingPoller) (b : Buffer) (timeout : Timeout) : Sys K (Code × RingPoller × Buffer) := do
  note (.wait p.fd timeout)
  let d := Deadline.after (← now) timeout
  let s ← rounds d ⟨p, b, .waiting⟩
  match s.progress with
  | .ended code => pure (code, s.poller, s.buffer)
  | _ =>
    note (.fired s.poller.fd s.buffer.length)
    pure (Code.success, s.poller, s.buffer)

end RingPoller

end Vigil
