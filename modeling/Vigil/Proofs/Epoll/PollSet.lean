import Vigil.Proofs.Channel.Vessel
import Vigil.Table
import Vigil.World

/-!
# A kernel with one poll set

`PollSet.kernel` keeps the registrations of one poll set, and serves one channel. A schedule of `Sweep`s says what each
wait on the set finds ready, which of that it hands over, and when it is interrupted.

- `PollSet.control`: registrations are changed as the poll calls have it: what is there cannot be added, and what is not
  cannot be changed or deleted. Every change arms;
- `PollSet.fires`: the record that a registration gives, if it is armed and ready for what it asks for;
- `PollSet.selection`: the descriptors that a sweep hands over: any that fire, each of them once, up to a limit. Those
  that were registered for one wake-up are disarmed, and stay registered (`registered_foldl_disarm`).
-/

namespace Vigil

/-- A registration of a poll set. -/
structure Watch where
  mask : Mask
  key : Key
  armed : Bool := true
  deriving DecidableEq

/-- A registration after it fired. One that was made for one wake-up is disarmed. -/
def Watch.fired (e : Watch) : Watch := { e with armed := e.armed && e.mask &&& Mask.oneshot == 0 }

/-- What happens during one waiting call. -/
structure Sweep where
  /-- The conditions of descriptors other than the channel's. -/
  ready : List (Descriptor × Mask) := []
  /-- The descriptors that are looked at, in order. -/
  picks : List Descriptor := []
  interrupted : Bool := false
  elapsed : Nat := 0

/-- A poll set's descriptor and registrations, the level of the channel, the sweeps to come, and the clock. -/
structure PollSet where
  set : Descriptor
  entries : Table Descriptor Watch := {}
  level : Nat := 0
  sweeps : List Sweep := []
  clock : Int := 0

namespace PollSet

variable {v : Vessel}

/-! ## Registrations -/

/-- Changes registrations. -/
def control (s : PollSet) (op : Control) (fd : Descriptor) (entry : Option PollRecord) : Fallible Unit × PollSet :=
  match op, s.entries.get? fd, entry with
  | .add, some _, _ => (.error Code.alreadyExists, s)
  | .add, none, some r => (.ok (), { s with entries := s.entries.insert fd ⟨r.mask, r.key, true⟩ })
  | .modify, some _, some r => (.ok (), { s with entries := s.entries.insert fd ⟨r.mask, r.key, true⟩ })
  | .modify, none, _ => (.error Code.noEntry, s)
  | .delete, some _, _ => (.ok (), { s with entries := s.entries.erase fd })
  | .delete, none, _ => (.error Code.noEntry, s)
  | _, _, none => (.error Code.invalid, s)

/-- What a descriptor is registered for, and under which key. -/
def registered (entries : Table Descriptor Watch) (fd : Descriptor) : Option (Mask × Key) :=
  (entries.get? fd).map fun e => (e.mask, e.key)

theorem registered_insert (t : Table Descriptor Watch) (k : Descriptor) (e : Watch) (fd : Descriptor) :
    registered (t.insert k e) fd = if fd = k then some (e.mask, e.key) else registered t fd := by
  unfold registered
  rw [Table.get?_insert]
  split <;> rfl

theorem registered_erase (t : Table Descriptor Watch) (k fd : Descriptor) :
    registered (t.erase k) fd = if fd = k then none else registered t fd := by
  unfold registered
  rw [Table.get?_erase]
  split <;> rfl

/-- A change puts a registration in place, drops one, or fails and changes nothing. -/
theorem control_cases (s : PollSet) (op : Control) (fd : Descriptor) (entry : Option PollRecord) :
    (s.control op fd entry).2 = s ∨
      (∃ r, entry = some r ∧
        (s.control op fd entry).2 = { s with entries := s.entries.insert fd ⟨r.mask, r.key, true⟩ }) ∨
      (s.control op fd entry).2 = { s with entries := s.entries.erase fd } := by
  unfold control
  split
  · exact .inl rfl
  · exact .inr (.inl ⟨_, rfl, rfl⟩)
  · exact .inr (.inl ⟨_, rfl, rfl⟩)
  · exact .inl rfl
  · exact .inr (.inr rfl)
  · exact .inl rfl
  · exact .inl rfl

theorem control_add (s : PollSet) (fd : Descriptor) (r : PollRecord) :
    s.control .add fd (some r) =
      if (registered s.entries fd).isSome then (.error Code.alreadyExists, s)
      else (.ok (), { s with entries := s.entries.insert fd ⟨r.mask, r.key, true⟩ }) := by
  unfold control registered
  cases s.entries.get? fd <;> rfl

theorem control_modify (s : PollSet) (fd : Descriptor) (r : PollRecord) :
    s.control .modify fd (some r) =
      if (registered s.entries fd).isSome then
        (.ok (), { s with entries := s.entries.insert fd ⟨r.mask, r.key, true⟩ })
      else (.error Code.noEntry, s) := by
  unfold control registered
  cases s.entries.get? fd <;> rfl

/-- Whether it was there or not, a registration that was deleted is gone. -/
theorem control_delete (s : PollSet) (fd : Descriptor) :
    (s.control .delete fd none).2 = { s with entries := s.entries.erase fd } := by
  unfold control
  cases h : s.entries.get? fd with
  | none =>
    show s = _
    rw [Table.erase_of_get?_eq_none h]
  | some e => rfl

theorem level_control (s : PollSet) (op : Control) (fd : Descriptor) (entry : Option PollRecord) :
    (s.control op fd entry).2.level = s.level := by
  unfold control
  split <;> rfl

/-! ## Sweeps -/

/-- The conditions that hold for a descriptor. A channel that is filled can be read. -/
def conditions (v : Vessel) (s : PollSet) (x : Sweep) (fd : Descriptor) : Mask :=
  if fd = v.channel.watched then if s.level = 0 then 0 else Mask.input
  else (x.ready.lookup fd).getD 0

/-- What a descriptor's registration gives, if it fires. Errors and hangups need not be asked for. -/
def fires (v : Vessel) (s : PollSet) (x : Sweep) (fd : Descriptor) : Option PollRecord :=
  match s.entries.get? fd with
  | none => none
  | some e =>
    let mask := s.conditions v x fd &&& (e.mask ||| Mask.error ||| Mask.hangup)
    if e.armed && mask != 0 then some ⟨mask, e.key⟩ else none

/-- The descriptors that a sweep hands over. -/
def selection (v : Vessel) (s : PollSet) (x : Sweep) (limit : Nat) : List Descriptor :=
  (x.picks.eraseDups.filter fun fd => (s.fires v x fd).isSome).take limit

/-- The registrations after one of them fired. -/
def disarm (entries : Table Descriptor Watch) (fd : Descriptor) : Table Descriptor Watch :=
  match entries.get? fd with
  | none => entries
  | some e => entries.insert fd e.fired

/-- What happens during the next waiting call. Without a schedule nothing is handed over. -/
def next (s : PollSet) : Sweep := s.sweeps.headD {}

/-- A waiting call. It lasts as long as its sweep says and, if it hands over nothing, for all of its time. -/
def sweep (v : Vessel) (s : PollSet) (limit : Nat) (millis : Int) : Fallible (Batch PollRecord) × PollSet :=
  let rest : PollSet := { s with sweeps := s.sweeps.tail, clock := s.clock + s.next.elapsed }
  if s.next.interrupted then (.error Code.interrupted, rest)
  else
    let fds := s.selection v s.next limit
    let idle := if fds.isEmpty then max 0 millis * nanosPerMilli else 0
    (.ok (.ofList (fds.filterMap (s.fires v s.next))),
      { rest with entries := fds.foldl disarm s.entries, clock := rest.clock + idle })

/-- The poll set when those sweeps are over that are interrupted. -/
def settled (s : PollSet) : PollSet := { s with sweeps := s.sweeps.dropWhile (·.interrupted) }

/-- The descriptors that a wait hands over which is repeated while it is interrupted. -/
def picked (v : Vessel) (s : PollSet) (limit : Nat) : List Descriptor := s.selection v s.settled.next limit

/-- What a wait hands over which is repeated while it is interrupted. -/
def handed (v : Vessel) (s : PollSet) (limit : Nat) : List PollRecord :=
  (s.picked v limit).filterMap (s.fires v s.settled.next)

/-- The answer to a call. -/
def answer (v : Vessel) (s : PollSet) : (c : Call) → Reply c × PollSet
  | .epollCreate _ => (.ok s.set, s)
  | .epollControl set op fd entry => if set = s.set then s.control op fd entry else (.error Code.invalid, s)
  | .epollWait set limit millis =>
    if set = s.set then s.sweep v limit millis else (.error Code.invalid, s)
  | .eventfd initial flags =>
    match v.channel with
    | .counter fd => (.ok fd, s)
    | .pipe .. => (Call.refusal (.eventfd initial flags), s)
  | .socketpair =>
    match v.channel with
    | .counter _ => (Call.refusal .socketpair, s)
    | .pipe reader writer => (.ok (reader, writer), s)
  | .getFlags _ => (.ok 0, s)
  | .setFlags .. => (.ok (), s)
  | .getDescriptorFlags _ => (.ok 0, s)
  | .setDescriptorFlags .. => (.ok (), s)
  | .read fd size =>
    let r := v.read s.level fd size
    (r.1, { s with level := r.2 })
  | .write fd bytes =>
    let r := v.write s.level fd bytes
    (r.1, { s with level := r.2 })
  | c => (c.refusal, s)

/-! ## What a firing keeps -/

theorem get?_disarm (t : Table Descriptor Watch) (k fd : Descriptor) :
    (disarm t k).get? fd = if fd = k then (t.get? fd).map Watch.fired else t.get? fd := by
  unfold disarm
  cases hk : t.get? k with
  | none =>
    by_cases h : fd = k
    · subst h
      rw [if_pos rfl, hk]
      rfl
    · rw [if_neg h]
  | some e =>
    dsimp only
    rw [Table.get?_insert]
    by_cases h : fd = k
    · subst h
      rw [if_pos rfl, if_pos rfl, hk]
      rfl
    · rw [if_neg h, if_neg h]

theorem registered_disarm (t : Table Descriptor Watch) (k fd : Descriptor) :
    registered (disarm t k) fd = registered t fd := by
  unfold registered
  rw [get?_disarm]
  split
  · rw [Option.map_map]
    rfl
  · rfl

/-- Whatever fires stays registered, for the same and under the same key. -/
theorem registered_foldl_disarm : ∀ (fds : List Descriptor) (t : Table Descriptor Watch) (fd : Descriptor),
    registered (fds.foldl disarm t) fd = registered t fd
  | [], _, _ => rfl
  | k :: fds, t, fd => (registered_foldl_disarm fds (disarm t k) fd).trans (registered_disarm t k fd)

/-! ## What is handed over -/

/-- A record has its registration's key. -/
theorem registered_of_fires {s : PollSet} {x : Sweep} {fd : Descriptor} {r : PollRecord}
    (h : s.fires v x fd = some r) : ∃ mask, registered s.entries fd = some (mask, r.key) := by
  unfold fires at h
  unfold registered
  cases he : s.entries.get? fd with
  | none =>
    rw [he] at h
    cases h
  | some e =>
    rw [he] at h
    dsimp only at h
    split at h
    · cases h
      exact ⟨e.mask, rfl⟩
    · cases h

theorem mem_selection {s : PollSet} {x : Sweep} {limit : Nat} {fd : Descriptor} (h : fd ∈ s.selection v x limit) :
    ∃ r, s.fires v x fd = some r :=
  Option.isSome_iff_exists.1 (List.mem_filter.1 (List.mem_of_mem_take h)).2

/-- A channel that is empty is not handed over. -/
theorem watched_not_mem_selection {s : PollSet} (h : s.level = 0) (x : Sweep) (limit : Nat) :
    v.channel.watched ∉ s.selection v x limit := by
  intro hm
  obtain ⟨r, hr⟩ := mem_selection hm
  unfold fires at hr
  cases he : s.entries.get? v.channel.watched with
  | none =>
    rw [he] at hr
    cases hr
  | some e =>
    rw [he] at hr
    simp [conditions, h] at hr

/-- Every descriptor that is handed over comes with a record. -/
theorem length_selection (s : PollSet) (x : Sweep) (limit : Nat) :
    ((s.selection v x limit).filterMap (s.fires v x)).length = (s.selection v x limit).length := by
  have h : ∀ fds : List Descriptor, (∀ fd ∈ fds, ∃ r, s.fires v x fd = some r) →
      (fds.filterMap (s.fires v x)).length = fds.length := by
    intro fds
    induction fds with
    | nil => exact fun _ => rfl
    | cons fd fds ih =>
      intro hfds
      obtain ⟨r, hr⟩ := hfds fd List.mem_cons_self
      rw [List.filterMap_cons_some hr, List.length_cons, List.length_cons,
        ih fun k hk => hfds k (List.mem_cons_of_mem _ hk)]
  exact h _ fun fd hfd => mem_selection hfd

theorem length_handed_le (s : PollSet) (limit : Nat) : (s.handed v limit).length ≤ limit :=
  Nat.le_trans (List.length_filterMap_le _ _) (List.length_take_le _ _)

/-! ## Repeated sweeps -/

theorem sweep_of_interrupted {s : PollSet} (h : s.next.interrupted = true) (limit : Nat) (millis : Int) :
    s.sweep v limit millis =
      (.error Code.interrupted, { s with sweeps := s.sweeps.tail, clock := s.clock + s.next.elapsed }) :=
  if_pos h

theorem interrupted_sweep (s : PollSet) (limit : Nat) (millis : Int) :
    interrupted (s.sweep v limit millis).1 = s.next.interrupted := by
  unfold sweep
  cases s.next.interrupted <;> rfl

/-- From one state to another, nothing happened but that interrupted sweeps passed. -/
structure Passed (s u : PollSet) : Prop where
  set : u.set = s.set
  entries : u.entries = s.entries
  level : u.level = s.level
  settled : u.sweeps.dropWhile (·.interrupted) = s.sweeps.dropWhile (·.interrupted)

/-- From one state to another, a sweep handed over what it picked. -/
structure Swept (v : Vessel) (limit : Nat) (s u : PollSet) : Prop where
  set : u.set = s.set
  entries : u.entries = (s.picked v limit).foldl disarm s.entries
  level : u.level = s.level

theorem Passed.refl (s : PollSet) : Passed s s := ⟨rfl, rfl, rfl, rfl⟩

theorem Passed.trans {s u t : PollSet} (h : Passed s u) (h' : Passed u t) : Passed s t :=
  ⟨h'.set.trans h.set, h'.entries.trans h.entries, h'.level.trans h.level, h'.settled.trans h.settled⟩

theorem Passed.fires {s u : PollSet} (h : Passed s u) (x : Sweep) (fd : Descriptor) :
    u.fires v x fd = s.fires v x fd := by
  unfold PollSet.fires conditions
  rw [h.entries, h.level]

theorem Passed.picked {s u : PollSet} (h : Passed s u) (limit : Nat) : u.picked v limit = s.picked v limit := by
  have hf : u.fires v = s.fires v := funext fun x => funext (h.fires x)
  unfold PollSet.picked selection next PollSet.settled
  rw [h.settled, hf]

theorem Passed.handed {s u : PollSet} (h : Passed s u) (limit : Nat) : u.handed v limit = s.handed v limit := by
  have hf : u.fires v = s.fires v := funext fun x => funext (h.fires x)
  unfold PollSet.handed
  rw [h.picked, hf]
  unfold next PollSet.settled
  rw [h.settled]

/-- An interrupted sweep passes. -/
theorem passed_sweep {s : PollSet} (h : s.next.interrupted = true) (limit : Nat) (millis : Int) :
    Passed s (s.sweep v limit millis).2 := by
  rw [sweep_of_interrupted h]
  refine ⟨rfl, rfl, rfl, ?_⟩
  unfold next at h
  cases hs : s.sweeps with
  | nil => rfl
  | cons x xs =>
    rw [hs] at h
    exact (List.dropWhile_cons_of_pos h).symm

/-- Any other one hands over what a wait does that is repeated until then. -/
theorem swept_sweep {s : PollSet} (h : s.next.interrupted = false) (limit : Nat) (millis : Int) :
    (s.sweep v limit millis).1 = .ok (.ofList (s.handed v limit)) ∧ Swept v limit s (s.sweep v limit millis).2 := by
  have hn : s.settled.next = s.next := by
    unfold next at h
    unfold next settled
    cases hs : s.sweeps with
    | nil => rfl
    | cons x xs =>
      rw [hs] at h
      have hx : ¬ x.interrupted = true := Bool.eq_false_iff.1 h
      rw [List.dropWhile_cons_of_neg hx]
  unfold handed picked sweep
  rw [hn, h, if_neg Bool.false_ne_true]
  exact ⟨rfl, rfl, by unfold picked; rw [hn], rfl⟩

/-! ## Patience -/

/-- How often a read can still take something, or a wait be interrupted. -/
def patience (s : PollSet) : Nat := s.level + s.sweeps.length

/-- Only what is scheduled is interrupted. -/
theorem patience_sweep_lt (s : PollSet) (limit : Nat) (millis : Int) (h : s.next.interrupted = true) :
    (s.sweep v limit millis).2.patience < s.patience := by
  rw [sweep_of_interrupted h]
  unfold next at h
  show s.level + s.sweeps.tail.length < s.level + s.sweeps.length
  cases hs : s.sweeps with
  | nil =>
    rw [hs] at h
    cases h
  | cons x xs => exact Nat.lt_succ_self _

theorem patience_lt (s : PollSet) (c : Call) (h : retried c (s.answer v c).1 = true) :
    (s.answer v c).2.patience < s.patience := by
  cases c with
  | epollWait set limit millis =>
    have h : interrupted (s.answer v (.epollWait set limit millis)).1 = true := h
    show (s.answer v (.epollWait set limit millis)).2.patience < _
    unfold answer at h ⊢
    dsimp only at h ⊢
    split at h
    · rename_i hset
      rw [if_pos hset]
      exact s.patience_sweep_lt limit millis (by rwa [interrupted_sweep] at h)
    · cases h
  | read fd size => exact Nat.add_lt_add_right (v.level_read_lt s.level fd size h) _
  | write fd bytes =>
    have hn : interrupted (v.write s.level fd bytes).1 = true := h
    rw [v.not_interrupted_write] at hn
    cases hn
  | _ => cases h

/-- The kernel of a poll set and a channel. -/
def kernel (v : Vessel) : Kernel where
  State := PollSet
  answer := answer v
  clock := clock
  patience := patience
  patience_lt := patience_lt
  patience_le s c h := by
    cases c with
    | ringSubmit _ => exact Nat.le_refl _
    | ringWait _ _ => exact Nat.le_refl _
    | ringAdvance _ => exact Nat.le_refl _
    | _ => cases h

/-- The state of the poll set in a world. -/
def ofWorld (w : World (kernel v)) : PollSet := w.kernel

end PollSet

end Vigil
