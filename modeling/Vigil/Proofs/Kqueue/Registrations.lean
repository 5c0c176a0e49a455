import Vigil.Proofs.Kqueue.FilterQueue
import Vigil.Proofs.RingPoller.Run

/-!
# Registrations of a filter queue

The filters of a queue follow the last call on their descriptor, although they also vanish of themselves.

- `Kqueue.perform`: what callers do. `Happening`: that, or filters vanish;
- `apply_spec`, `wait_spec`: the two kinds of calls on the queue. Each of the others is made of the first;
- `Kqueue.Follows`: what an operation makes of the filters, and how it is answered;
- `filters_follow`: after anything that can happen to a new queue, each operation does just that.
-/

namespace Vigil

open RingPoller (Operation Answer)

namespace Channel

/-- The waker of a queue whose pair of sockets, if it uses one, is this channel. -/
def waker : Channel → Waker
  | counter _ => .userFilter
  | pipe reader writer => .channel (pipe reader writer)

/-- What watching the waker again makes of the filters: for a pair of sockets, the read filter of its first descriptor
is there for one wake-up, and the write filter is not. -/
def Rearms : Channel → Knotes → Knotes → Prop
  | counter _, t, u => u = t
  | pipe reader _, t, u => Stated reader (.readableOnly notifyKey) .oneshot t u

end Channel

namespace Kqueue

/-- Carries out an operation. -/
def perform {K : Kernel} (q : Kqueue) : Operation → Sys K Answer
  | .add fd e mode => do pure { code := ← q.add fd e mode }
  | .modify fd e mode => do pure { code := ← q.modify fd e mode }
  | .remove fd => do pure { code := ← q.remove fd }
  | .wake => do
    q.wake
    pure {}
  | .wait b timeout => do
    let (code, b) ← q.wait b timeout
    pure { code, records := b.raw }

open FilterQueue (kernel ofWorld)

variable {v : Vessel} {q : Kqueue} {w : World (kernel v)}

/-! ## Changes -/

/-- Changes are applied, and succeed whatever their receipts say. -/
theorem apply_spec (h : q.fd = (ofWorld w).queue) {changes : List Kevent} (hlen : changes.length ≤ maxChanges) :
    (q.apply changes w).1 = Code.success ∧
      ofWorld (q.apply changes w).2 = { ofWorld w with filters := ((ofWorld w).filters.apply changes).2 } := by
  have hcall : ((call (.keventChange q.fd changes) w).1, ofWorld (call (.keventChange q.fd changes) w).2) =
      (.ok ((ofWorld w).filters.apply changes).1,
        { ofWorld w with filters := ((ofWorld w).filters.apply changes).2 }) := if_pos h
  have hreply := congrArg Prod.fst hcall
  have hstate := congrArg Prod.snd hcall
  dsimp only at hreply hstate
  have hstop : interrupted (call (.keventChange q.fd changes) w).1 = false := by
    rw [hreply]
    rfl
  rw [apply_eq, if_neg (Nat.not_lt.2 hlen), Sys.bind_apply, insist_stop hstop, hreply]
  dsimp only
  rw [Knotes.verdict_apply]
  exact ⟨rfl, hstate⟩

theorem modify_spec (h : q.fd = (ofWorld w).queue) (fd : Descriptor) (e : Event) (mode : Mode) :
    (q.modify fd e mode w).1 = Code.success ∧
      ofWorld (q.modify fd e mode w).2 =
        { ofWorld w with filters := ((ofWorld w).filters.apply (e.changes fd mode)).2 } := by
  have hlen : (e.changes fd mode).length ≤ maxChanges := Nat.le_refl 2
  unfold modify
  split
  · exact apply_spec (w := (note (.register .modify q.fd fd e mode) w).2) h hlen
  · exact apply_spec h hlen

/-- A call on a descriptor succeeds, and states its filters. -/
theorem modify_states (h : q.fd = (ofWorld w).queue) (fd : Descriptor) (e : Event) (mode : Mode) :
    (q.modify fd e mode w).1 = Code.success ∧ (ofWorld (q.modify fd e mode w).2).queue = (ofWorld w).queue ∧
      Stated fd e mode (ofWorld w).filters (ofWorld (q.modify fd e mode w).2).filters := by
  obtain ⟨hcode, hstate⟩ := modify_spec h fd e mode
  rw [hstate]
  exact ⟨hcode, rfl, stated_changes _ e fd mode⟩

/-! ## Waking and waiting -/

/-- Emptying a channel changes nothing but its level. -/
theorem drain_spec (c : Channel) (w : World (kernel v)) :
    ∃ level, ofWorld (c.drain w).2 = { ofWorld w with level } := by
  let inv (_ : Fallible Nat) (u : World (kernel v)) : Prop := ∃ level, ofWorld u = { ofWorld w with level }
  have hread : ∀ u : World (kernel v), (∃ level, ofWorld u = { ofWorld w with level }) →
      inv (call c.draining u).1 (call c.draining u).2 := by
    rintro u ⟨level, hu⟩
    have hr : ofWorld (call c.draining u).2 =
        { ofWorld u with level := (v.read (ofWorld u).level c.watched c.readSize).2 } := rfl
    rw [hu] at hr
    exact ⟨_, hr⟩
  obtain ⟨_, h, -⟩ := @Channel.drain_induct _ c inv w (hread w ⟨_, rfl⟩) fun _ u hu _ => hread u hu
  exact h

/-- Neither does making it readable. -/
theorem signal_spec (c : Channel) (w : World (kernel v)) :
    ∃ level, ofWorld (c.wake w).2 = { ofWorld w with level } := by
  let inv (_ : Fallible Nat) (u : World (kernel v)) : Prop := ∃ level, ofWorld u = { ofWorld w with level }
  have hwrite : ∀ u : World (kernel v), (∃ level, ofWorld u = { ofWorld w with level }) →
      inv (call c.signaling u).1 (call c.signaling u).2 := by
    rintro u ⟨level, hu⟩
    have hr : ofWorld (call c.signaling u).2 =
        { ofWorld u with level := (v.write (ofWorld u).level c.writer c.signal).2 } := rfl
    rw [hu] at hr
    exact ⟨_, hr⟩
  obtain ⟨_, h, -⟩ := @Channel.wake_induct _ c inv w (hwrite w ⟨_, rfl⟩) fun _ u hu _ => hwrite u hu
  exact h

/-- Making a waker fire changes no filter but the user's. -/
theorem fire_spec (h : q.fd = (ofWorld w).queue) (waker : Waker) :
    (ofWorld (waker.fire q w).2).queue = (ofWorld w).queue ∧
      ∀ k, k ≠ (0, Kevent.user) → (ofWorld (waker.fire q w).2).filters.get? k = (ofWorld w).filters.get? k := by
  cases waker with
  | userFilter =>
    let changes := [Kevent.userChange (Kevent.add ||| Kevent.receipt) Kevent.trigger]
    have hlen : changes.length ≤ maxChanges := by decide
    obtain ⟨-, hstate⟩ := apply_spec h hlen
    show (ofWorld (q.apply changes w).2).queue = _ ∧ ∀ k, _ → (ofWorld (q.apply changes w).2).filters.get? k = _
    rw [hstate]
    exact ⟨rfl, fun k hk => Kevent.get?_applyTo_of_ne _ hk⟩
  | channel c =>
    obtain ⟨level, hstate⟩ := signal_spec c w
    show (ofWorld (c.wake w).2).queue = _ ∧ ∀ k, _ → (ofWorld (c.wake w).2).filters.get? k = _
    rw [hstate]
    exact ⟨rfl, fun _ _ => rfl⟩

theorem wake_spec (h : q.fd = (ofWorld w).queue) :
    (ofWorld (q.wake w).2).queue = (ofWorld w).queue ∧
      ∀ k, k ≠ (0, Kevent.user) → (ofWorld (q.wake w).2).filters.get? k = (ofWorld w).filters.get? k := by
  unfold wake
  rw [Sys.bind_apply]
  cases q.waker with
  | none => exact ⟨rfl, fun _ _ => rfl⟩
  | some waker =>
    have hfire := fire_spec (w := (note (.wake q.fd) w).2) h waker
    dsimp only
    rw [Sys.bind_apply, Sys.ite_apply]
    split <;> exact hfire

/-- A poll that is repeated while it is interrupted ends as it is scheduled. -/
theorem insist_poll (h : q.fd = (ofWorld w).queue) (d : Deadline) :
    let r := insist interrupted (q.poll d) w
    r.1 = (ofWorld w).outcome ∧ ofWorld r.2 = (ofWorld w).awaited := by
  -- until the waiting call that ends the wait, the rest of the wait stays the same
  let inv (a : Fallible (Batch Kevent)) (u : World (kernel v)) : Prop :=
    if interrupted a then
      (ofWorld u).queue = q.fd ∧ (ofWorld u).outcome = (ofWorld w).outcome ∧ (ofWorld u).awaited = (ofWorld w).awaited
    else a = (ofWorld w).outcome ∧ ofWorld u = (ofWorld w).awaited
  have hpoll : ∀ u : World (kernel v), (ofWorld u).queue = q.fd → (ofWorld u).outcome = (ofWorld w).outcome →
      (ofWorld u).awaited = (ofWorld w).awaited → inv (q.poll d u).1 (q.poll d u).2 := by
    intro u hqueue houtcome hawaited
    have ha : ((q.poll d u).1, ofWorld (q.poll d u).2) = ((ofWorld u).next.outcome, (ofWorld u).caught) := by
      rw [poll_apply]
      exact if_pos hqueue.symm
    have hreply : (q.poll d u).1 = (ofWorld u).next.outcome := congrArg Prod.fst ha
    have hstate : ofWorld (q.poll d u).2 = (ofWorld u).caught := congrArg Prod.snd ha
    show if interrupted (q.poll d u).1 then _ else _
    rw [hreply, hstate]
    cases hi : interrupted (ofWorld u).next.outcome with
    | true =>
      obtain ⟨ho, hs⟩ := FilterQueue.caught_of_interrupted hi
      exact ⟨hqueue, ho.trans houtcome, hs.trans hawaited⟩
    | false =>
      obtain ⟨ho, hs⟩ := FilterQueue.caught_of_not_interrupted hi
      exact ⟨ho.trans houtcome, hs.trans hawaited⟩
  have hμ : ∀ u : World (kernel v), interrupted (q.poll d u).1 = true → (q.poll d u).2.patience < u.patience := by
    intro u h
    rw [poll_apply] at h ⊢
    exact patience_call_lt h
  have repeated : ∀ a u, inv a u → interrupted a = true → inv (q.poll d u).1 (q.poll d u).2 := by
    intro a u hi ha
    simp only [inv, ha, if_true] at hi
    exact hpoll u hi.1 hi.2.1 hi.2.2
  obtain ⟨hi, ha⟩ := insist_induct hμ (hpoll w h.symm rfl rfl) repeated
  simpa only [inv, ha, Bool.false_eq_true, if_false] using hi

/-- Watching a waker again succeeds. -/
theorem reattach_spec (h : q.fd = (ofWorld w).queue) {c : Channel} (hc : q.waker = some c.waker) :
    (q.reattach w).1 = Code.success ∧ (ofWorld (q.reattach w).2).queue = (ofWorld w).queue ∧
      c.Rearms (ofWorld w).filters (ofWorld (q.reattach w).2).filters := by
  unfold reattach
  rw [hc]
  cases c with
  | counter fd => exact ⟨rfl, rfl, rfl⟩
  | pipe reader writer =>
    let u := ((Channel.pipe reader writer).drain w).2
    obtain ⟨level, hu⟩ := drain_spec (Channel.pipe reader writer) w
    have hq : q.fd = (ofWorld u).queue := by
      rw [hu]
      exact h
    have hstates := modify_states hq reader (.readableOnly notifyKey) .oneshot
    rw [show ofWorld u = _ from hu] at hstates
    exact hstates

/-- A wait ends as its last waiting call does. If that succeeded, so does the wait, and the waker is watched again. -/
theorem wait_spec (h : q.fd = (ofWorld w).queue) {c : Channel} (hc : q.waker = some c.waker) (b : Buffer)
    (timeout : Timeout) :
    let r := q.wait b timeout w
    (ofWorld r.2).queue = (ofWorld w).queue ∧
      (∀ code, (ofWorld w).outcome = .error code →
        r.1.1 = code ∧ (ofWorld r.2).filters = (ofWorld w).awaited.filters) ∧
      ∀ rs, (ofWorld w).outcome = .ok rs →
        r.1.1 = Code.success ∧ c.Rearms (ofWorld w).awaited.filters (ofWorld r.2).filters := by
  have hpoll := insist_poll (w := (note (.wait q.fd timeout) w).2) h
    (Deadline.after ((kernel v).clock (note (.wait q.fd timeout) w).2.kernel) timeout)
  rw [wait_apply]
  dsimp only at hpoll ⊢
  generalize insist interrupted _ _ = r at hpoll ⊢
  obtain ⟨a, u⟩ := r
  obtain ⟨ha, hstate⟩ : a = (ofWorld w).outcome ∧ ofWorld u = (ofWorld w).awaited := hpoll
  have hqueue : (ofWorld u).queue = (ofWorld w).queue := by
    rw [hstate]
    rfl
  rw [← ha, ← hstate]
  cases a with
  | error code =>
    exact ⟨hqueue, fun _ he => ⟨Except.error.inj he, rfl⟩, fun _ he => by cases he⟩
  | ok rs =>
    obtain ⟨hcode, hq, hrearms⟩ := reattach_spec (w := (note (.fired q.fd rs.count) u).2) (h.trans hqueue.symm) hc
    exact ⟨hq.trans hqueue, (fun _ he => by cases he), fun _ _ => ⟨hcode, hrearms⟩⟩

/-! ## Runs -/

/-- What can happen to a filter queue. -/
inductive Happening where
  /-- An operation is carried out. -/
  | call (o : Operation)
  /-- Filters fire that were to fire once, or their handles are closed. -/
  | vanish (keys : List FilterKey)

/-- The world after something happened. -/
def pass (q : Kqueue) (w : World (kernel v)) : Happening → World (kernel v)
  | .call o => (q.perform o w).2
  | .vanish keys => { w with kernel := (ofWorld w).without keys }

/-- The world after several things happened. -/
def live (q : Kqueue) (xs : List Happening) (w : World (kernel v)) : World (kernel v) := xs.foldl q.pass w

/-- What an operation makes of the filters, and how it is answered. A call on a descriptor states both of its filters,
whatever was there before. A wait that has come to its end watches the waker again. -/
def Follows (c : Channel) (s : FilterQueue) (a : Answer) (u : FilterQueue) : Operation → Prop
  | .add fd e mode => a.code = Code.success ∧ Stated fd e mode s.filters u.filters
  | .modify fd e mode => a.code = Code.success ∧ Stated fd e mode s.filters u.filters
  | .remove fd => a.code = Code.success ∧ Stated fd (.none 0) .oneshot s.filters u.filters
  | .wake => ∀ k, k ≠ (0, Kevent.user) → u.filters.get? k = s.filters.get? k
  | .wait .. =>
    (∀ code, s.outcome = .error code → a.code = code ∧ u.filters = s.awaited.filters) ∧
      ∀ rs, s.outcome = .ok rs → a.code = Code.success ∧ c.Rearms s.awaited.filters u.filters

/-- A queue does with each operation what is to be done, and remains the queue that it was. -/
theorem follows_perform (h : q.fd = (ofWorld w).queue) {c : Channel} (hc : q.waker = some c.waker) (o : Operation) :
    (ofWorld (q.perform o w).2).queue = (ofWorld w).queue ∧
      Follows c (ofWorld w) (q.perform o w).1 (ofWorld (q.perform o w).2) o := by
  cases o with
  | add fd e mode =>
    obtain ⟨hcode, hqueue, hstated⟩ := modify_states h fd e mode
    exact ⟨hqueue, hcode, hstated⟩
  | modify fd e mode =>
    obtain ⟨hcode, hqueue, hstated⟩ := modify_states h fd e mode
    exact ⟨hqueue, hcode, hstated⟩
  | remove fd =>
    obtain ⟨hcode, hqueue, hstated⟩ := modify_states h fd (.none 0) .oneshot
    exact ⟨hqueue, hcode, hstated⟩
  | wake => exact wake_spec h
  | wait b timeout => exact wait_spec h hc b timeout

/-- Whatever happens, a queue remains the queue that it was. -/
theorem queue_live : ∀ (xs : List Happening) {w : World (kernel v)}, q.fd = (ofWorld w).queue → ∀ {c : Channel},
    q.waker = some c.waker → q.fd = (ofWorld (q.live xs w)).queue
  | [], _, h, _, _ => h
  | .call o :: xs, _, h, _, hc => queue_live xs (h.trans (follows_perform h hc o).1.symm) hc
  | .vanish _ :: xs, _, h, _, hc => queue_live xs h hc

theorem setsUp (v : Vessel) : Channel.SetsUp (kernel v) where
  getFlags _ _ := rfl
  setFlags _ _ _ := rfl
  getDescriptorFlags _ _ := rfl
  setDescriptorFlags _ _ _ := rfl

theorem create_spec (w : World (kernel v)) :
    ((Waker.ofStrategy v.channel.strategy).create w).1 = (Code.success, v.channel.waker) ∧
      ofWorld ((Waker.ofStrategy v.channel.strategy).create w).2 = ofWorld w := by
  obtain ⟨channel, -, -, -⟩ := v
  cases channel with
  | counter fd => exact ⟨rfl, rfl⟩
  | pipe reader writer =>
    obtain ⟨hcode, hworld⟩ := (setsUp _).setUpAll [reader, writer] (call .socketpair w).2
    have hpair : (call .socketpair w).1 = .ok (reader, writer) := rfl
    simp only [Channel.strategy, Waker.ofStrategy, Channel.newPipe, Waker.create, Channel.create, Sys.bind_apply,
      Sys.pure_apply, hpair, hcode]
    exact ⟨rfl, hworld⟩

/-- Starting to watch a waker succeeds. -/
theorem attach_spec (h : q.fd = (ofWorld w).queue) (waker : Waker) :
    (waker.attach q w).1 = Code.success ∧ (ofWorld (waker.attach q w).2).queue = (ofWorld w).queue := by
  cases waker with
  | userFilter =>
    let changes := [Kevent.userChange (Kevent.add ||| Kevent.receipt ||| Kevent.clear) 0]
    have hlen : changes.length ≤ maxChanges := by decide
    obtain ⟨hcode, hstate⟩ := apply_spec h hlen
    refine ⟨hcode, ?_⟩
    show (ofWorld (q.apply changes w).2).queue = _
    rw [hstate]
  | channel c =>
    obtain ⟨hcode, hqueue, -⟩ := modify_states h c.watched (.readableOnly notifyKey) .oneshot
    exact ⟨hcode, hqueue⟩

/-- A new queue watches its waker. -/
theorem created (v : Vessel) (s : FilterQueue) :
    let r := ({} : Kqueue).init v.channel.strategy ({ kernel := s } : World (kernel v))
    r.1 = (Code.success, { fd := s.queue, waker := some v.channel.waker, attached := true }) ∧
      (ofWorld r.2).queue = s.queue := by
  let w : World (kernel v) :=
    (call (.setDescriptorFlags s.queue Channel.closeOnExec) (call .kqueueCreate { kernel := s }).2).2
  let q : Kqueue := { fd := s.queue, waker := some v.channel.waker }
  show let r := openWaker { fd := s.queue } v.channel.strategy w
    r.1 = (Code.success, { q with attached := true }) ∧ (ofWorld r.2).queue = s.queue
  obtain ⟨hcreate, hworld⟩ := create_spec w
  generalize hu : (Waker.ofStrategy v.channel.strategy).create w = u at hcreate hworld
  have hqueue : q.fd = (ofWorld u.2).queue := (congrArg FilterQueue.queue hworld).symm
  obtain ⟨hattach, hsame⟩ := attach_spec hqueue v.channel.waker
  have hopen : openWaker { fd := s.queue } v.channel.strategy w =
      ((Code.success, { q with attached := true }), (note (.opened q.fd) (v.channel.waker.attach q u.2).2).2) := by
    unfold openWaker
    simp only [Sys.bind_apply, hu, hcreate]
    rw [if_neg (not_not_intro rfl), Sys.bind_apply, hattach, if_neg (not_not_intro rfl)]
    rfl
  rw [hopen]
  exact ⟨rfl, hsame.trans hqueue.symm⟩

/-- **Filters follow the last call.** Whatever was carried out on a new queue, and whatever filters vanished in between,
each further call on a descriptor succeeds and states its two filters, each under the call's key and with the flags of
its mode (`Mode.firing`) just if the call asked for it; all other filters are left alone, among them those of other
descriptors. A wait whose last waiting call succeeded does the same for the descriptor that wakes it, and so succeeds as
well. Adding is changing, and dropping a registration again makes no difference. -/
theorem filters_follow (v : Vessel) (s : FilterQueue) (xs : List Happening) :
    let r := ({} : Kqueue).init v.channel.strategy ({ kernel := s } : World (kernel v))
    let q := r.1.2
    let w := q.live xs r.2
    r.1.1 = Code.success ∧
      (∀ o, Follows v.channel (ofWorld w) (q.perform o w).1 (ofWorld (q.perform o w).2) o) ∧
      (∀ fd fd', Kevent.identOf fd = Kevent.identOf fd' → fd = fd') ∧
      (∀ fd e mode, q.add fd e mode w = q.modify fd e mode w) ∧
      ∀ fd,
        let w₁ := (q.remove fd w).2
        let w₂ := (q.remove fd w₁).2
        (q.remove fd w₁).1 = Code.success ∧ ∀ k, (ofWorld w₂).filters.get? k = (ofWorld w₁).filters.get? k := by
  obtain ⟨hr, hqueue⟩ := created v s
  intro r q w
  have hq : q = { fd := s.queue, waker := some v.channel.waker, attached := true } := congrArg Prod.snd hr
  have hfd : q.fd = (ofWorld r.2).queue := by
    rw [hq]
    exact hqueue.symm
  have hwaker : q.waker = some v.channel.waker := by rw [hq]
  have hw : q.fd = (ofWorld w).queue := queue_live xs hfd hwaker
  refine ⟨congrArg Prod.fst hr, fun o => (follows_perform hw hwaker o).2, fun _ _ => Kevent.identOf_injective,
    fun _ _ _ => rfl, ?_⟩
  intro fd w₁ w₂
  obtain ⟨-, hqueue₁, h₁⟩ := modify_states hw fd (.none 0) .oneshot
  obtain ⟨hcode, -, h₂⟩ := modify_states (w := w₁) (hw.trans hqueue₁.symm) fd (.none 0) .oneshot
  refine ⟨hcode, fun k => ?_⟩
  by_cases hread : k = (Kevent.identOf fd, Kevent.read)
  · rw [hread]
    exact h₂.read.trans h₁.read.symm
  · by_cases hwrite : k = (Kevent.identOf fd, Kevent.write)
    · rw [hwrite]
      exact h₂.write.trans h₁.write.symm
    · exact h₂.others k hread hwrite

/-- A descriptor whose read filter has vanished is watched for reading only, in each mode. The filter is back with the
flags of the mode, and the write filter is gone. -/
theorem filters_follow_vanished :
    let v : Vessel := { channel := .pipe 9 10, capacity := 1, capacity_pos := Nat.one_pos }
    let s : FilterQueue := { queue := 3 }
    let xs := [.call (.add 5 (Event.all 7) .edge), .vanish [(5, Kevent.read)]]
    let r := ({} : Kqueue).init v.channel.strategy ({ kernel := s } : World (kernel v))
    let q := r.1.2
    let w := q.live xs r.2
    let filters (mode : Mode) := (ofWorld (q.perform (.modify 5 (Event.readableOnly 8) mode) w).2).filters
    (ofWorld w).filters.get? (5, Kevent.read) = none ∧
      (ofWorld w).filters.get? (5, Kevent.write) = some ⟨Kevent.clear, 7⟩ ∧
      (∀ mode, (filters mode).get? (5, Kevent.write) = none) ∧
      (filters .oneshot).get? (5, Kevent.read) = some ⟨Kevent.oneshot, 8⟩ ∧
      (filters .level).get? (5, Kevent.read) = some ⟨0, 8⟩ ∧
      (filters .edge).get? (5, Kevent.read) = some ⟨Kevent.clear, 8⟩ ∧
      (filters .edgeOneshot).get? (5, Kevent.read) = some ⟨Kevent.oneshot ||| Kevent.clear, 8⟩ := by
  intro v s xs r q w filters
  have hfollows := (filters_follow v s xs).2.1
  have hident : Kevent.identOf 5 = 5 := by decide
  have hreads : (Event.readableOnly 8).readable = true ∧ ¬ (Event.readableOnly 8).writable = true ∧
      (Event.readableOnly 8).key = 8 := by decide
  -- the run is the same as written, and need not be evaluated to see it
  have hread (mode : Mode) : (filters mode).get? (5, Kevent.read) = some ⟨mode.firing, 8⟩ := by
    have h := (hfollows (.modify 5 (Event.readableOnly 8) mode)).2.read
    rw [hident, if_pos hreads.1, hreads.2.2] at h
    with_reducible exact h
  have hwrite (mode : Mode) : (filters mode).get? (5, Kevent.write) = none := by
    have h := (hfollows (.modify 5 (Event.readableOnly 8) mode)).2.write
    rw [hident, if_neg hreads.2.1] at h
    with_reducible exact h
  exact ⟨by decide +kernel, by decide +kernel, hwrite, hread .oneshot, hread .level, hread .edge, hread .edgeOneshot⟩

end Kqueue

end Vigil
