import Vigil.Kqueue
import Vigil.Proofs.Channel.Vessel
import Vigil.Table

/-!
# A kernel with one filter queue

`FilterQueue.kernel` keeps the filters of one queue, and serves one channel. A schedule of `Catch`es says how each
waiting call on the queue ends, and which filters vanish until then: they fired and were registered to fire once, or
their handles were closed. Filters vanish between calls as well (`FilterQueue.without`).

- `Kevent.applyTo`, `Kevent.receiptOn`: an addition puts a filter in place with its flags and key, a deletion drops one,
  and each change has a receipt, with an error if there was nothing to delete. None of these errors makes a change fail
  (`isFailure_receiptOn`);
- `get?_change`, `Stated`: what the two changes that state the filters of a descriptor leave behind;
- `FilterQueue.outcome`, `FilterQueue.awaited`: what a wait comes to that is repeated while it is interrupted.
-/

namespace Vigil

/-- What filters are told apart by: an identifier, and a kind. -/
abbrev FilterKey := UInt64 × Int16

/-- A filter as the kernel keeps it: the flags that say how often it fires, and its owner's key. -/
structure Knote where
  flags : UInt16
  udata : Key
  deriving DecidableEq

/-- The filters of a queue. -/
abbrev Knotes := Table FilterKey Knote

/-- The filters without those that vanished. -/
def Knotes.without (t : Knotes) (keys : List FilterKey) : Knotes := keys.foldl Table.erase t

/-! ## Changes -/

namespace Kevent

/-- The filter that a change is about. -/
def filterKey (k : Kevent) : FilterKey := (k.ident, k.filter)

/-- What a change makes of the filters. -/
def applyTo (t : Knotes) (k : Kevent) : Knotes :=
  if k.flags &&& add != 0 then t.insert k.filterKey ⟨k.flags &&& ~~~(add ||| delete ||| receipt), k.udata⟩
  else if k.flags &&& delete != 0 then t.erase k.filterKey
  else t

/-- The receipt of a change. Only what is to be added need not be there. -/
def receiptOn (t : Knotes) (k : Kevent) : Kevent where
  ident := k.ident
  filter := k.filter
  flags := k.flags ||| error
  fflags := k.fflags
  data := if k.flags &&& add != 0 || (t.get? k.filterKey).isSome then 0 else Code.noEntry.toInt64
  udata := k.udata

/-- A change leaves the other filters alone. -/
theorem get?_applyTo_of_ne (t : Knotes) {k : Kevent} {key : FilterKey} (h : key ≠ k.filterKey) :
    (k.applyTo t).get? key = t.get? key := by
  unfold applyTo
  split
  · rw [Table.get?_insert, if_neg h]
  · split
    · rw [Table.get?_erase, if_neg h]
    · rfl

theorem isFailure_receiptOn (t : Knotes) (k : Kevent) : (k.receiptOn t).isFailure = false := by
  have h : (0 : Int64) == 0 ∧ Code.isBenign Code.noEntry.toInt64 = true := by decide
  simp only [isFailure, receiptOn]
  split <;> simp [h]

/-- The identifier of a descriptor is that of no other one. -/
theorem identOf_injective {fd fd' : Descriptor} (h : identOf fd = identOf fd') : fd = fd' := by
  have h64 : fd.toInt64 = fd'.toInt64 := Int64.toBitVec_inj.1 (congrArg UInt64.toBitVec h)
  have hint : fd.toInt64.toInt = fd'.toInt64.toInt := congrArg Int64.toInt h64
  rw [Int32.toInt_toInt64, Int32.toInt_toInt64] at hint
  exact Int32.toInt_inj.1 hint

end Kevent

/-- The flags that say how often a filter of a mode is to fire: `0x10` drops it once it has fired, and `0x20` clears its
state when it is reported. -/
def Mode.firing : Mode → UInt16
  | .oneshot => 0x10
  | .level => 0
  | .edge => 0x20
  | .edgeOneshot => 0x30
  | .unknown => 0x10

/-- What is left of a change's flags in the kernel is its mode. -/
theorem Mode.flags_kept (mode : Mode) :
    (Kevent.add ||| mode.flags ||| Kevent.receipt) &&& ~~~(Kevent.add ||| Kevent.delete ||| Kevent.receipt) =
      mode.firing := by
  cases mode <;> decide

/-- The change of one filter of a descriptor puts it in place if it is wanted, and drops it otherwise. -/
theorem Knotes.get?_change (t : Knotes) (fd : Descriptor) (filter : Int16) (wanted : Bool) (mode : Mode) (key : Key)
    (k : FilterKey) : ((Kevent.change fd filter wanted mode key).applyTo t).get? k =
      if k = (Kevent.identOf fd, filter) then if wanted then some ⟨mode.firing, key⟩ else none else t.get? k := by
  have hadd := Kevent.flags_change_add fd filter wanted mode key
  cases wanted with
  | true =>
    rw [Kevent.applyTo, if_pos hadd, Table.get?_insert]
    simp [Kevent.change, mode.flags_kept, Kevent.filterKey]
  | false =>
    have hdelete : ((Kevent.delete ||| Kevent.receipt) &&& Kevent.delete != 0) = true := by decide
    rw [Kevent.applyTo, if_neg (Bool.eq_false_iff.1 hadd)]
    simp [Kevent.change, hdelete, Table.get?_erase, Kevent.filterKey]

/-- From some filters to others, nothing changed but that both filters of a descriptor were made to follow an event:
each is there just if it is wanted, to fire as a mode says and under the event's key. -/
structure Stated (fd : Descriptor) (e : Event) (mode : Mode) (t u : Knotes) : Prop where
  read : u.get? (Kevent.identOf fd, Kevent.read) = if e.readable then some ⟨mode.firing, e.key⟩ else none
  write : u.get? (Kevent.identOf fd, Kevent.write) = if e.writable then some ⟨mode.firing, e.key⟩ else none
  others : ∀ k, k ≠ (Kevent.identOf fd, Kevent.read) → k ≠ (Kevent.identOf fd, Kevent.write) → u.get? k = t.get? k

/-- Applies changes in order. The answer is their receipts. -/
def Knotes.apply (t : Knotes) : List Kevent → List Kevent × Knotes
  | [] => ([], t)
  | k :: ks =>
    let r := Knotes.apply (k.applyTo t) ks
    (k.receiptOn t :: r.1, r.2)

/-- No receipt makes its change fail. -/
theorem Knotes.verdict_apply : ∀ (ks : List Kevent) (t : Knotes), verdict (t.apply ks).1 = none
  | [], _ => rfl
  | k :: ks, t => by
    have h := verdict_apply ks (k.applyTo t)
    simpa [apply, verdict, Kevent.isFailure_receiptOn] using h

theorem stated_changes (t : Knotes) (e : Event) (fd : Descriptor) (mode : Mode) :
    Stated fd e mode t (t.apply (e.changes fd mode)).2 := by
  have hne : (Kevent.identOf fd, Kevent.read) ≠ (Kevent.identOf fd, Kevent.write) := fun h => by
    cases congrArg Prod.snd h
  have h (k : FilterKey) := Knotes.get?_change
    ((Kevent.change fd Kevent.read e.readable mode e.key).applyTo t) fd Kevent.write e.writable mode e.key k
  refine ⟨(h _).trans ?_, (h _).trans (if_pos rfl), fun k hr hw => (h k).trans ?_⟩
  · rw [if_neg hne, Knotes.get?_change, if_pos rfl]
  · rw [if_neg hw, Knotes.get?_change, if_neg hr]

/-! ## The queue -/

/-- How a waiting call ends, and which filters vanish until then. -/
structure Catch where
  outcome : Fallible (Batch Kevent) := .ok (.ofList [])
  vanished : List FilterKey := []

/-- What a wait comes to that is repeated while it is interrupted: how its last waiting call ends, the filters then, and
the waiting calls after it. Filters vanish during each of the calls. -/
def Catch.await : List Catch → Knotes → Fallible (Batch Kevent) × Knotes × List Catch
  | [], t => (.ok (.ofList []), t, [])
  | c :: cs, t =>
    if interrupted c.outcome then await cs (t.without c.vanished) else (c.outcome, t.without c.vanished, cs)

/-- A filter queue's descriptor and filters, the level of the channel, and the waiting calls to come. -/
structure FilterQueue where
  queue : Descriptor
  filters : Knotes := {}
  level : Nat := 0
  catches : List Catch := []

namespace FilterQueue

variable {v : Vessel}

/-- Filters vanish. -/
def without (s : FilterQueue) (keys : List FilterKey) : FilterQueue := { s with filters := s.filters.without keys }

/-- How the next waiting call ends. Without a schedule it finds nothing. -/
def next (s : FilterQueue) : Catch := s.catches.headD {}

/-- The queue after a waiting call. -/
def caught (s : FilterQueue) : FilterQueue := { s.without s.next.vanished with catches := s.catches.tail }

/-- How a wait ends that is repeated while it is interrupted. -/
def outcome (s : FilterQueue) : Fallible (Batch Kevent) := (Catch.await s.catches s.filters).1

/-- The queue when such a wait has ended. -/
def awaited (s : FilterQueue) : FilterQueue :=
  let r := Catch.await s.catches s.filters
  { s with filters := r.2.1, catches := r.2.2 }

/-- The answer to a call. -/
def answer (v : Vessel) (s : FilterQueue) : (c : Call) → Reply c × FilterQueue
  | .kqueueCreate => (.ok s.queue, s)
  | .keventChange queue changes =>
    if queue = s.queue then
      let r := s.filters.apply changes
      (.ok r.1, { s with filters := r.2 })
    else (.error Code.invalid, s)
  | .keventWait queue _ _ => if queue = s.queue then (s.next.outcome, s.caught) else (.error Code.invalid, s)
  | .socketpair =>
    match v.channel with
    | .counter _ => (Call.refusal .socketpair, s)
    | .pipe reader writer => (.ok (reader, writer), s)
  | .getFlags _ => (.ok 0, s)
  | .setFlags .. => (.ok (), s)
  | .getDescriptorFlags _ => (.ok 0, s)
  | .setDescriptorFlags .. => (.ok (), s)
  | .read fd size =>
    let r := v.read s.level fd size
    (r.1, { s with level := r.2 })
  | .write fd bytes =>
    let r := v.write s.level fd bytes
    (r.1, { s with level := r.2 })
  | c => (c.refusal, s)

/-! ## Repeated waits -/

/-- A waiting call that is interrupted leaves the rest of the wait to the next one. -/
theorem caught_of_interrupted {s : FilterQueue} (h : interrupted s.next.outcome = true) :
    s.caught.outcome = s.outcome ∧ s.caught.awaited = s.awaited := by
  obtain ⟨queue, filters, level, catches⟩ := s
  cases catches with
  | nil => cases h
  | cons c cs =>
    have h : interrupted c.outcome = true := h
    simp [outcome, awaited, Catch.await, caught, without, next, h]

/-- Any other one ends the wait. -/
theorem caught_of_not_interrupted {s : FilterQueue} (h : interrupted s.next.outcome = false) :
    s.next.outcome = s.outcome ∧ s.caught = s.awaited := by
  obtain ⟨queue, filters, level, catches⟩ := s
  cases catches with
  | nil => exact ⟨rfl, rfl⟩
  | cons c cs =>
    have h : interrupted c.outcome = false := h
    simp [outcome, awaited, Catch.await, caught, without, next, h]

/-! ## Patience -/

/-- How often a read can still take something, or a wait be interrupted. -/
def patience (s : FilterQueue) : Nat := s.level + s.catches.length

theorem patience_lt (s : FilterQueue) (c : Call) (h : retried c (s.answer v c).1 = true) :
    (s.answer v c).2.patience < s.patience := by
  cases c with
  | keventChange queue changes =>
    have h : interrupted (s.answer v (.keventChange queue changes)).1 = true := h
    unfold answer at h
    dsimp only at h
    split at h <;> cases h
  | keventWait queue limit timeout =>
    have h : interrupted (s.answer v (.keventWait queue limit timeout)).1 = true := h
    unfold answer at h ⊢
    dsimp only at h ⊢
    split at h
    · rename_i hq
      rw [if_pos hq]
      show s.level + s.catches.tail.length < s.level + s.catches.length
      unfold next at h
      cases hs : s.catches with
      | nil =>
        rw [hs] at h
        cases h
      | cons c cs => simp
    · cases h
  | read fd size => exact Nat.add_lt_add_right (v.level_read_lt s.level fd size h) _
  | write fd bytes =>
    have hn : interrupted (v.write s.level fd bytes).1 = true := h
    rw [v.not_interrupted_write] at hn
    cases hn
  | _ => cases h

/-- The kernel of a filter queue and a channel. Its clock stands still. -/
def kernel (v : Vessel) : Kernel where
  State := FilterQueue
  answer := answer v
  clock _ := 0
  patience := patience
  patience_lt := patience_lt
  patience_le s c h := by
    cases c with
    | ringSubmit _ => exact Nat.le_refl _
    | ringWait _ _ => exact Nat.le_refl _
    | ringAdvance _ => exact Nat.le_refl _
    | _ => cases h

/-- The state of the queue in a world. -/
def ofWorld (w : World (kernel v)) : FilterQueue := w.kernel

end FilterQueue

end Vigil
