import Vigil.Proofs.Wait.Resumption
import Vigil.Replay
import Vigil.Session

/-!
# What a wait leaves in its buffer

A buffer goes from one wait to the next, and its slots keep what was written to them. What is committed after a wait
comes from the last waiting call of this wait alone.

- `Exchange.retrieved`: what a waiting call retrieves that ends a wait. On a ring that is what was reaped after it
  (`Backend.reaped`); a failed call retrieves nothing;
- `EndsWith`: from one world to another there was a wait, and this was its last waiting call;
- `ends_wait`: for each kind of backend, what was retrieved is what is committed, whatever happens after the waiting
  call;
- `wait_replaces`: so it is for each wait of a session, after whatever was carried out before with the same buffer.
-/

namespace Vigil

variable {K : Kernel}

/-! ## Retrieved records -/

namespace Exchange

/-- Whether a waiting call stored a record in every slot that it calls filled, as the kernel's calls do. -/
def isComplete : Exchange → Bool
  | ⟨.epollWait .., .ok rs, _⟩ => rs.count ≤ rs.records.length
  | ⟨.keventWait .., .ok rs, _⟩ => rs.count ≤ rs.records.length
  | _ => true

/-- The records that a waiting call retrieves, as far as there is room, given those that are reaped after it. -/
def retrieved (reaped : List Record) : Exchange → List Record
  | ⟨.epollWait .., .ok rs, _⟩ => ((rs.records.take rs.count).take Buffer.capacity).map Record.poll
  | ⟨.keventWait .., .ok rs, _⟩ => ((rs.records.take rs.count).take Buffer.capacity).map Record.filter
  | ⟨.ringWait .., .ok _, _⟩ => reaped
  | _ => []

/-- Only what is retrieved after completions arrived depends on what is reaped. -/
theorem retrieved_congr {x : Exchange} {rs rs' : List Record} (h : x.isArrival = true → rs = rs') :
    x.retrieved rs = x.retrieved rs' := by
  obtain ⟨c, reply, t⟩ := x
  cases c with
  | ringWait queued rest =>
    cases reply with
    | error code => rfl
    | ok cs => exact h rfl
  | epollWait set limit millis => cases reply <;> rfl
  | keventWait queue limit rest => cases reply <;> rfl
  | _ => rfl

end Exchange

/-- Filling a buffer with the form that records have in it. -/
theorem Buffer.raw_fill_map {α : Type} (b : Buffer) (f : α → Record) {rs : Batch α}
    (h : rs.count ≤ rs.records.length) :
    (b.fill (rs.map f)).raw = ((rs.records.take rs.count).take Buffer.capacity).map f := by
  have hle : (rs.map f).count ≤ (rs.map f).records.length := by simpa [Batch.map] using h
  rw [b.raw_fill_of_le hle]
  simp [Batch.map]

/-! ## Last waiting calls -/

/-- From one world to another there was a wait, and this was its last waiting call. -/
structure EndsWith (x : Exchange) (w v : World K) : Prop where
  wait : x.call.isWait = true
  passage : ∃ xs ys, Passage w (xs ++ x :: ys) v ∧ ∀ y ∈ ys, y.call.isWait = false

namespace EndsWith

variable {x : Exchange} {w v u : World K}

theorem before {xs : List Exchange} (h : Passage w xs v) (h' : EndsWith x v u) : EndsWith x w u := by
  obtain ⟨hwait, ys, zs, hp, hzs⟩ := h'
  refine ⟨hwait, xs ++ ys, zs, ?_, hzs⟩
  rw [List.append_assoc]
  exact h.trans hp

theorem after (h : EndsWith x w v) (h' : Reaches (·.isWait = false) v u) : EndsWith x w u := by
  obtain ⟨hwait, xs, ys, hp, hys⟩ := h
  obtain ⟨zs, hq, hzs⟩ := h'.passage
  refine ⟨hwait, xs, ys ++ zs, ?_, List.forall_mem_append.2 ⟨hys, hzs⟩⟩
  have hall := hp.trans hq
  rwa [List.append_assoc, List.cons_append] at hall

end EndsWith

/-- What is true of an attempt's result and its one waiting call is true of the last attempt that is made. -/
theorem ends_insist {α : Type} {attempt : Sys K (Fallible α)} {Q : Fallible α → Exchange → Prop}
    (hattempt : ∀ w, ∃ x, EndsWith x w (attempt w).2 ∧ Q (attempt w).1 x)
    (hμ : ∀ w, interrupted (attempt w).1 = true → (attempt w).2.patience < w.patience) (w : World K) :
    let r := insist interrupted attempt w
    ∃ x, EndsWith x w r.2 ∧ Q r.1 x ∧ interrupted r.1 = false := by
  let inv (a : Fallible α) (v : World K) : Prop := ∃ x, EndsWith x w v ∧ Q a x
  have hrepeat : ∀ a v, inv a v → interrupted a = true → inv (attempt v).1 (attempt v).2 := by
    rintro a v ⟨x, ⟨-, xs, ys, hp, -⟩, -⟩ -
    obtain ⟨y, hy, hq⟩ := hattempt v
    exact ⟨y, hy.before hp, hq⟩
  obtain ⟨⟨x, hx, hq⟩, hi⟩ := @insist_induct K _ _ _ inv hμ w (hattempt w) hrepeat
  exact ⟨x, hx, hq, hi⟩

/-! ## Poll sets and filter queues -/

/-- What the answer to a waiting call makes of a buffer. -/
def Buffer.replace {α : Type} (b : Buffer) (f : α → Record) : Fallible (Batch α) → Buffer
  | .error _ => b.clear
  | .ok rs => b.fill (rs.map f)

/-- An answer is the one of a waiting call, and a buffer in which it is stored holds what the call retrieved. -/
structure Stores {α : Type} (b : Buffer) (f : α → Record) (a : Fallible (Batch α)) (x : Exchange) : Prop where
  interrupted : x.isInterrupted = interrupted a
  raw : x.isComplete = true → (b.replace f a).raw = x.retrieved []

theorem stores_epollWait (b : Buffer) (set : Descriptor) (limit : Nat) (millis : Int)
    (a : Fallible (Batch PollRecord)) (t : Int) : Stores b Record.poll a ⟨.epollWait set limit millis, a, t⟩ := by
  refine ⟨rfl, fun h => ?_⟩
  cases a with
  | error code => rfl
  | ok rs => exact b.raw_fill_map Record.poll (of_decide_eq_true h)

theorem stores_keventWait (b : Buffer) (queue : Descriptor) (limit : Nat) (rest : Option Timespec)
    (a : Fallible (Batch Kevent)) (t : Int) : Stores b Record.filter a ⟨.keventWait queue limit rest, a, t⟩ := by
  refine ⟨rfl, fun h => ?_⟩
  cases a with
  | error code => rfl
  | ok rs => exact b.raw_fill_map Record.filter (of_decide_eq_true h)

/-- A wait that repeats one attempt, and then does what is no wait. -/
theorem ends_attempts {α : Type} {attempt : Sys K (Fallible (Batch α))} {b : Buffer} {f : α → Record} {n : Note}
    {w u : World K} (hattempt : ∀ v, ∃ x, EndsWith x v (attempt v).2 ∧ Stores b f (attempt v).1 x)
    (hμ : ∀ v, interrupted (attempt v).1 = true → (attempt v).2.patience < v.patience)
    (hafter : Reaches (·.isWait = false) (insist interrupted attempt (note n w).2).2 u) :
    ∃ x, EndsWith x w u ∧ x.isInterrupted = false ∧
      (x.isComplete = true → (b.replace f (insist interrupted attempt (note n w).2).1).raw = x.retrieved []) := by
  obtain ⟨x, hends, hstores, hi⟩ := ends_insist hattempt hμ (note n w).2
  exact ⟨x, (hends.before (.noted n w)).after hafter, hstores.interrupted.trans hi, hstores.raw⟩

/-- The last answer of a wait is what it makes of its buffer. -/
theorem Epoll.buffer_wait (p : Epoll) (b : Buffer) (timeout : Timeout) (w : World K) :
    let v := (note (.wait p.fd timeout) w).2
    (p.wait b timeout w).1.2 =
      b.replace Record.poll (insist interrupted (p.poll (Deadline.after (K.clock v.kernel) timeout)) v).1 := by
  rw [wait_apply]
  dsimp only
  generalize insist interrupted _ _ = r
  cases r.1 <;> rfl

theorem Epoll.ends_wait (p : Epoll) (b : Buffer) (timeout : Timeout) (w : World K) :
    ∃ x, EndsWith x w (p.wait b timeout w).2 ∧ x.isInterrupted = false ∧
      (x.isComplete = true → (p.wait b timeout w).1.2.raw = x.retrieved []) := by
  rw [p.buffer_wait]
  exact ends_attempts
    (fun v => by
      rw [poll_apply]
      exact ⟨_, ⟨rfl, [], [], .called _ v, List.forall_mem_nil _⟩, stores_epollWait b _ _ _ _ _⟩)
    (p.polls timeout _).patience_lt (p.reaches_wait b timeout w)

theorem Kqueue.buffer_wait (q : Kqueue) (b : Buffer) (timeout : Timeout) (w : World K) :
    let v := (note (.wait q.fd timeout) w).2
    (q.wait b timeout w).1.2 =
      b.replace Record.filter (insist interrupted (q.poll (Deadline.after (K.clock v.kernel) timeout)) v).1 := by
  rw [wait_apply]
  dsimp only
  generalize insist interrupted _ _ = r
  cases r.1 <;> rfl

theorem Kqueue.ends_wait (q : Kqueue) (b : Buffer) (timeout : Timeout) (w : World K) :
    ∃ x, EndsWith x w (q.wait b timeout w).2 ∧ x.isInterrupted = false ∧
      (x.isComplete = true → (q.wait b timeout w).1.2.raw = x.retrieved []) := by
  rw [q.buffer_wait]
  exact ends_attempts
    (fun v => by
      rw [poll_apply]
      exact ⟨_, ⟨rfl, [], [], .called _ v, List.forall_mem_nil _⟩, stores_keventWait b _ _ _ _ _⟩)
    (q.polls timeout _).patience_lt (q.reaches_wait b timeout w)

/-! ## Rings -/

namespace RingPoller

/-- The records of the last walk. -/
def lastRecords (ws : List (List (Sighting K))) : List Record := (ws.getLast?.getD []).filterMap Sighting.record

theorem lastRecords_append (vs : List (List (Sighting K))) {ws : List (List (Sighting K))} (h : ws ≠ []) :
    lastRecords (vs ++ ws) = lastRecords ws := by
  unfold lastRecords
  rw [List.getLast?_append_of_ne_nil _ h]

/-- A round asks once, and walks over completions if they arrived. If it ends the wait, then the buffer holds what was
retrieved. -/
theorem ends_round (d : Deadline) (s : Round) (w : World K) (hs : s.progress = .waiting) :
    ∃ x, EndsWith x w (round d s w).2 ∧ (x.isArrival = true → s.walks d w ≠ []) ∧
      ((round d s w).1.progress ≠ .waiting → x.isInterrupted = false ∧
        (round d s w).1.buffer.raw = x.retrieved (lastRecords (s.walks d w))) := by
  have hsettled := settled_round d s w hs
  rw [round_apply] at hsettled ⊢
  unfold Round.walks at hsettled ⊢
  have hp := Passage.called (.ringWait s.poller.ring.completed.length (d.timespec (K.clock w.kernel))) w
  generalize call _ w = r at hp hsettled ⊢
  obtain ⟨reply, v⟩ := r
  have hends : EndsWith ⟨.ringWait _ _, reply, K.clock v.kernel⟩ w v := ⟨rfl, [], [], hp, List.forall_mem_nil _⟩
  have hafter : Confined (K := K) (·.isWait = false) (s.after d reply) :=
    (s.built_after (fun _ => rfl) (fun _ => rfl) _ _).confined
  refine ⟨_, hends.after (hafter v), fun harrival => ?_, fun hend => ?_⟩
  · cases reply with
    | error code => cases harrival
    | ok cs => exact List.cons_ne_nil _ _
  · rcases hsettled with ⟨hwaiting, -⟩ | ⟨-, hrecords, -⟩
    · exact absurd hwaiting hend
    · cases reply with
      | error code =>
        refine ⟨Bool.eq_false_iff.2 fun hi => hend ?_, hrecords⟩
        exact (Round.waiting_after_error d s code v hs).2 (eq_of_beq hi)
      | ok cs =>
        rw [List.flatten_singleton] at hrecords
        exact ⟨rfl, hrecords⟩

/-- So it is for rounds that go on until the wait ends. -/
theorem ends_rounds (d : Deadline) (n : Nat) (s : Round) (w : World K) (hs : s.progress = .waiting) :
    let r := persist (·.progress == .waiting) (round d) n s w
    r.1.progress ≠ .waiting → ∃ x, EndsWith x w r.2 ∧ (x.isArrival = true → Round.walksIn d n s w ≠ []) ∧
      x.isInterrupted = false ∧ r.1.buffer.raw = x.retrieved (lastRecords (Round.walksIn d n s w)) := by
  induction n generalizing s w with
  | zero => exact fun h => absurd hs h
  | succ n ih =>
    rw [persist_go (by simp [hs])]
    intro r hr
    obtain ⟨x, hx, harrival, hraw⟩ := ends_round d s w hs
    obtain ⟨xs, ys, hp, -⟩ := hx.passage
    have hwalks : Round.walksIn d (n + 1) s w =
        s.walks d w ++ Round.walksIn d n (round d s w).1 (round d s w).2 := by
      conv => lhs; unfold Round.walksIn
      rw [if_pos hs]
    rw [hwalks]
    by_cases hw : (round d s w).1.progress = .waiting
    · obtain ⟨y, hy, hyarrival, hyi, hyraw⟩ := ih _ _ hw hr
      refine ⟨y, hy.before hp, fun h => List.append_ne_nil_of_right_ne_nil _ (hyarrival h), hyi, hyraw.trans ?_⟩
      -- if there was a walk after the last waiting call, then it is one of the rounds to come
      exact Exchange.retrieved_congr fun h => (lastRecords_append _ (hyarrival h)).symm
    · -- there are no more rounds
      have hend : r = round d s w := persist_stop (by simp [hw]) _ _
      rw [walksIn_eq_nil hw, List.append_nil, hend]
      exact ⟨x, hx, harrival, hraw hw⟩

/-- What is in the buffer makes no difference to a round. -/
theorem round_buffer (d : Deadline) (s : Round) (b : Buffer) (w : World K) :
    ∃ b', round d { s with buffer := b } w = ({ (round d s w).1 with buffer := b' }, (round d s w).2) := by
  rw [round_apply, round_apply]
  dsimp only
  generalize call _ w = r
  obtain ⟨reply, v⟩ := r
  cases reply with
  | error code =>
    simp only [Round.after, Sys.ite_apply]
    split
    · exact ⟨b, rfl⟩
    · split
      · exact ⟨b.clear, rfl⟩
      · exact ⟨b.clear, rfl⟩
  | ok cs => exact ⟨_, rfl⟩

/-- Nor does it to the walks of a wait. -/
theorem walksIn_buffer (d : Deadline) : ∀ (n : Nat) (s : Round) (b : Buffer) (w : World K),
    Round.walksIn d n { s with buffer := b } w = Round.walksIn d n s w
  | 0, _, _, _ => rfl
  | n + 1, s, b, w => by
    obtain ⟨b', hb'⟩ := round_buffer d s b w
    have hrest := walksIn_buffer d n (round d s w).1 b' (round d s w).2
    have hwalks : Round.walks d { s with buffer := b } w = s.walks d w := by
      unfold Round.walks
      dsimp only
      generalize call _ w = r
      obtain ⟨reply, v⟩ := r
      cases reply <;> rfl
    unfold Round.walksIn
    rw [hb', hrest, hwalks]

theorem ends_wait (p : RingPoller) (b : Buffer) (timeout : Timeout) (w : World K) :
    ∃ x, EndsWith x w (p.wait b timeout w).2 ∧ x.isInterrupted = false ∧
      (p.wait b timeout w).1.2.2.raw =
        x.retrieved (lastRecords (Moment.walksOf ⟨p, w⟩ (.wait Buffer.empty timeout))) := by
  let v := w.noted (.wait p.fd timeout)
  let d := Deadline.after (K.clock v.kernel) timeout
  obtain ⟨x, hx, -, hi, hraw⟩ :=
    ends_rounds d (v.patience + 2) ⟨p, b, .waiting⟩ v rfl (progress_rounds d ⟨p, b, .waiting⟩ v)
  rw [walksIn_buffer d _ ⟨p, Buffer.empty, .waiting⟩ b v] at hraw
  have hend : Reaches (·.isWait = false) (rounds d ⟨p, b, .waiting⟩ v).2 (p.wait b timeout w).2 ∧
      (p.wait b timeout w).1.2.2 = (rounds d ⟨p, b, .waiting⟩ v).1.buffer := by
    rw [wait_apply]
    dsimp only
    split
    · exact ⟨.refl, rfl⟩
    · exact ⟨Reaches.refl.noted _, rfl⟩
  rw [hend.2]
  exact ⟨x, (hx.before (.noted _ w)).after hend.1, hi, hraw⟩

end RingPoller

/-! ## All backends -/

/-- The records of a wait's last reap. Only rings reap. -/
def Backend.reaped (timeout : Timeout) (w : World K) : Backend → List Record
  | ring p => RingPoller.lastRecords (RingPoller.Moment.walksOf ⟨p, w⟩ (.wait Buffer.empty timeout))
  | _ => []

/-- What is committed after a wait is what its last waiting call retrieved. -/
theorem Backend.ends_wait (b : Backend) (buffer : Buffer) (timeout : Timeout) (w : World K) :
    ∃ x, EndsWith x w (b.wait buffer timeout w).2 ∧ x.isInterrupted = false ∧
      (x.isComplete = true → (b.wait buffer timeout w).1.2.2.raw = x.retrieved (b.reaped timeout w)) := by
  cases b with
  | epoll p => exact p.ends_wait buffer timeout w
  | kqueue q => exact q.ends_wait buffer timeout w
  | ring p =>
    obtain ⟨x, hx, hi, hraw⟩ := p.ends_wait buffer timeout w
    exact ⟨x, hx, hi, fun _ => hraw⟩

/-- **Replacement.** Whatever a session carried out before, each of its waits makes a last waiting call, which is not
interrupted, and then leaves in the buffer just what this call retrieved, if it stored a record in every slot that it
called filled: nothing if it failed, also if the time was over on a ring; what a poll set or filter queue stored, in
order and as far as there is room, whatever watching the waker again led to; what a ring's last reap made of its
completions. Nothing in that depends on what the buffer held. -/
theorem wait_replaces (s : Session) (w : World K) (before : List Command) (timeout : Timeout) {b : Backend}
    (hb : (s.performAll before w).1.2.backend = some b) :
    let t := (s.performAll before w).1.2
    let u := (s.performAll before w).2
    let r := t.perform (.wait timeout) u
    ∃ xs x ys code, r.2.trace = u.trace ++ xs ++ x :: ys ∧
      x.call.isWait = true ∧ (∀ y ∈ ys, y.call.isWait = false) ∧ x.isInterrupted = false ∧
      r.1.1 = .waited code r.1.2.buffer ∧
      (x.isComplete = true → r.1.2.buffer.raw = x.retrieved (b.reaped timeout u)) := by
  intro t u
  obtain ⟨x, ⟨hwait, xs, ys, hp, hys⟩, hi, hraw⟩ := b.ends_wait t.buffer timeout u
  have hperform : t.perform (.wait timeout) u =
      ((.waited (b.wait t.buffer timeout u).1.1 (b.wait t.buffer timeout u).1.2.2,
        { t with backend := some (b.wait t.buffer timeout u).1.2.1, buffer := (b.wait t.buffer timeout u).1.2.2 }),
        (b.wait t.buffer timeout u).2) := by
    rw [Session.perform_of_some hb rfl]
    rfl
  rw [hperform]
  exact ⟨xs, x, ys, _, by rw [hp.trace, List.append_assoc], hwait, hys, hi, rfl, hraw⟩

/-- On a poll set, the second of two waits retrieves less than the first one, and then its channel cannot be watched
again. -/
theorem wait_replaces_shorter :
    let s : Session := { setup := { build := Platform.linux.build } }
    let w := Replay.world {
      script := [(.epollWait, { polled := [⟨Mask.input, 7⟩, ⟨Mask.input, 8⟩] }),
        (.epollWait, { polled := [⟨Mask.output, 9⟩] }),
        (.epollControl, {}), (.epollControl, {}), (.epollControl, { error := some Code.noEntry })] }
    let before := [.create (some "epoll"), .wait none]
    let t := (s.performAll before w).1.2
    let r := t.perform (.wait none) (s.performAll before w).2
    t.buffer.raw = [.poll ⟨Mask.input, 7⟩, .poll ⟨Mask.input, 8⟩] ∧
      r.1.2.buffer.raw = [.poll ⟨Mask.output, 9⟩] ∧
      ∃ x ∈ r.2.trace, x.call.isWait = true ∧ (x.isComplete = true → x.retrieved [] = [.poll ⟨Mask.output, 9⟩]) := by
  intro s w before
  dsimp only
  obtain ⟨xs, x, ys, code, htrace, hwait, -, -, -, hraw⟩ :=
    wait_replaces (K := Replay.kernel) s w before none
      (b := .epoll { fd := 100, channel := some (.counter 101), attached := true }) (by decide +kernel)
  refine ⟨by decide +kernel, by decide +kernel, x, ?_, hwait, fun h => ?_⟩
  · rw [htrace]
    exact List.mem_append_right _ List.mem_cons_self
  · refine (hraw h).symm.trans ?_
    decide +kernel

end Vigil
