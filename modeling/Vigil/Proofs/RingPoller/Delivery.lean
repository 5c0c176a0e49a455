import Vigil.Proofs.RingPoller.Account
import Vigil.Replay

/-!
# What waits deliver

* **Waits deliver exactly what the completions become** (`delivery_exact`): in a run, the records in the buffers are
  those of the completions that were looked at, in order (`delivered_run`); completions are looked at in the order in
  which the kernel added them, each of them once, and room is given back for just as many (`tally_run`).
* **A buffer that is not full has left nothing behind** (`drained_after`).

Only waits touch the queue of completions, all other operations leave it alone (`Idle`). A walk takes from its front
what it looks at (`seen_reap`, `completions_walk`).
-/

namespace Vigil.RingPoller

variable {K : Kernel}

/-! ## What leaves completions alone -/

/-- From one moment to the other, no completion arrived, none was taken, and no room was given back. -/
structure Idle (m m' : Moment K) : Prop where
  completed : m'.poller.ring.completed = m.poller.ring.completed
  arrived : m'.arrived = m.arrived
  advances : m'.advances = m.advances

namespace Idle

theorem refl (m : Moment K) : Idle m m := ⟨rfl, rfl, rfl⟩

theorem trans {m m₁ m₂ : Moment K} (h : Idle m m₁) (h' : Idle m₁ m₂) : Idle m m₂ :=
  ⟨h'.completed.trans h.completed, h'.arrived.trans h.arrived, h'.advances.trans h.advances⟩

/-- The world is the same, and so is the queue of completions. -/
theorem ofCompleted {p q : RingPoller} {w : World K} (h : q.ring.completed = p.ring.completed) :
    Idle ⟨p, w⟩ ⟨q, w⟩ :=
  ⟨h, rfl, rfl⟩

theorem noted (p : RingPoller) (w : World K) (m : Message) : Idle ⟨p, w⟩ ⟨p, w.noted m⟩ := ⟨rfl, rfl, rfl⟩

end Idle

theorem Handover.idle {m m' : Moment K} (h : Handover m m') : Idle m m' := ⟨h.completed, h.arrived, h.advances⟩

theorem idle_submit (p : RingPoller) (w : World K) : Idle ⟨p, w⟩ ⟨(p.submit w).1.2, (p.submit w).2⟩ :=
  (handover_submit p w).idle

theorem idle_arm (p : RingPoller) (fd : Descriptor) (r : Registration) (w : World K) :
    Idle ⟨p, w⟩ ⟨(p.arm fd r w).1, (p.arm fd r w).2⟩ := by
  rw [arm_apply]
  split
  · exact .ofCompleted rfl
  · have h := (handover_reserve p w).idle
    dsimp only
    split <;> exact h.trans (.ofCompleted rfl)

theorem idle_cancel (p : RingPoller) (r : Registration) (w : World K) :
    Idle ⟨p, w⟩ ⟨(p.cancel r w).1, (p.cancel r w).2⟩ := by
  rw [cancel_apply]
  split
  · exact .refl _
  · have hp : Idle ⟨p, w⟩ ⟨{ p with owners := p.owners.erase r.token }, w⟩ := .ofCompleted rfl
    have h := hp.trans (handover_reserve _ w).idle
    dsimp only
    split
    · exact h.trans (.ofCompleted rfl)
    · exact h

theorem idle_add (p : RingPoller) (fd : Descriptor) (e : Event) (mode : Mode) (w : World K) :
    Idle ⟨p, w⟩ ⟨(p.add fd e mode w).1.2, (p.add fd e mode w).2⟩ := by
  have hn := Idle.noted p w (.register .add none fd e mode)
  rw [add_apply]
  dsimp only
  split
  · exact hn
  · split
    · exact hn
    · have h := hn.trans (idle_arm p fd ⟨e, mode, ignoreToken⟩ _)
      split
      · exact h.trans (.ofCompleted rfl)
      · exact h.trans (idle_submit _ _)

theorem idle_modify (p : RingPoller) (fd : Descriptor) (e : Event) (mode : Mode) (w : World K) :
    Idle ⟨p, w⟩ ⟨(p.modify fd e mode w).1.2, (p.modify fd e mode w).2⟩ := by
  have hn := Idle.noted p w (.register .modify none fd e mode)
  rw [modify_apply]
  dsimp only
  split
  · exact hn
  · cases p.registrations.get? fd with
    | none => exact hn
    | some old =>
      exact ((hn.trans (idle_cancel p old _)).trans (idle_arm _ fd ⟨e, mode, ignoreToken⟩ _)).trans (idle_submit _ _)

theorem idle_remove (p : RingPoller) (fd : Descriptor) (w : World K) :
    Idle ⟨p, w⟩ ⟨(p.remove fd w).1.2, (p.remove fd w).2⟩ := by
  have hn := Idle.noted p w (.remove none fd)
  rw [remove_apply]
  dsimp only
  cases p.registrations.get? fd with
  | none => exact hn
  | some old =>
    let c := p.cancel old (w.noted (.remove none fd))
    have hc : Idle ⟨p, w⟩ ⟨{ c.1 with registrations := c.1.registrations.erase fd }, c.2⟩ :=
      (hn.trans (idle_cancel p old _)).trans (.ofCompleted rfl)
    exact hc.trans (idle_submit _ _)

theorem idle_signal (p : RingPoller) (w : World K) : Idle ⟨p, w⟩ ⟨(p.signal w).1.2, (p.signal w).2⟩ := by
  have h := (handover_reserve p w).idle
  rw [signal_apply]
  dsimp only
  split
  · have hp : Idle ⟨p, w⟩ ⟨(p.reserve w).1.push (.nop wakeToken), (p.reserve w).2⟩ := h.trans (.ofCompleted rfl)
    exact hp.trans (idle_submit _ _)
  · exact h

theorem idle_wake (p : RingPoller) (w : World K) : Idle ⟨p, w⟩ ⟨(p.wake w).1, (p.wake w).2⟩ := by
  have hn := Idle.noted p w (.wake p.fd)
  rw [wake_apply]
  dsimp only
  split
  · have hs := hn.trans (idle_signal p _)
    split
    · exact hs.trans (Idle.noted _ _ _)
    · exact hs
  · exact hn

theorem idle_next (x : Sighting K) : Idle x.toMoment x.next := by
  have hc : Idle x.toMoment x.consumed := .ofCompleted (congrArg Ring.completed (ring_consume _ _))
  refine hc.trans ?_
  unfold Sighting.next
  cases (x.poller.consume x.completion).rearm with
  | none => exact .refl _
  | some r => exact (idle_arm x.consumed.poller r.1 r.2 x.world).trans (idle_submit _ _)

/-! ## Walks -/

theorem idle_reap : ∀ (cs : List Completion) (room : Nat) (m : Moment K),
    let r := reap cs room m.poller m.world
    Idle m ⟨r.1.poller, r.2⟩
  | [], _, _ => .refl _
  | _ :: _, 0, _ => .refl _
  | c :: cs, room + 1, m => by
    rw [reap_cons]
    exact (idle_next (⟨m, c⟩ : Sighting K)).trans (idle_reap cs _ _)

theorem records_reap : ∀ (cs : List Completion) (room : Nat) (m : Moment K),
    (reap cs room m.poller m.world).1.records = (walk cs room m).filterMap Sighting.record
  | [], _, _ => rfl
  | _ :: _, 0, _ => rfl
  | c :: cs, room + 1, m => by
    rw [reap_cons]
    dsimp only [walk]
    rw [records_reap cs _ (Sighting.next ⟨m, c⟩)]
    cases hr : Sighting.record (⟨m, c⟩ : Sighting K) with
    | none => rw [List.filterMap_cons_none hr]; rfl
    | some r => rw [List.filterMap_cons_some hr]; rfl

theorem seen_reap : ∀ (cs : List Completion) (room : Nat) (m : Moment K),
    (reap cs room m.poller m.world).1.seen = (walk cs room m).length
  | [], _, _ => rfl
  | _ :: _, 0, _ => rfl
  | c :: cs, room + 1, m => by
    rw [reap_cons]
    dsimp only [walk]
    rw [seen_reap cs _ (Sighting.next ⟨m, c⟩), List.length_cons]

/-- A walk looks at the first completions, in order. -/
theorem completions_walk : ∀ (cs : List Completion) (room : Nat) (m : Moment K),
    (walk cs room m).map (·.completion) = cs.take (walk cs room m).length
  | [], _, _ => rfl
  | _ :: _, 0, _ => rfl
  | c :: cs, room + 1, m => by
    dsimp only [walk]
    rw [List.map_cons, completions_walk cs, List.length_cons, List.take_succ_cons]

/-- A walk has no more records than there is room for. -/
theorem records_walk_le : ∀ (cs : List Completion) (room : Nat) (m : Moment K),
    ((walk cs room m).filterMap Sighting.record).length ≤ room
  | [], _, _ => Nat.zero_le _
  | _ :: _, 0, _ => Nat.zero_le _
  | c :: cs, room + 1, m => by
    dsimp only [walk]
    cases hr : Sighting.record (⟨m, c⟩ : Sighting K) with
    | none =>
      rw [List.filterMap_cons_none hr]
      exact records_walk_le cs (room + 1) _
    | some r =>
      rw [List.filterMap_cons_some hr]
      exact Nat.succ_le_succ (records_walk_le cs room _)

/-- A walk ends early only when there is no room for another record. -/
theorem length_walk : ∀ (cs : List Completion) (room : Nat) (m : Moment K),
    ((walk cs room m).filterMap Sighting.record).length < room → (walk cs room m).length = cs.length
  | [], _, _, _ => rfl
  | _ :: _, 0, _, h => by cases h
  | c :: cs, room + 1, m, h => by
    dsimp only [walk] at h ⊢
    rw [List.length_cons, List.length_cons]
    cases hr : Sighting.record (⟨m, c⟩ : Sighting K) with
    | none =>
      rw [List.filterMap_cons_none hr, hr] at h
      exact congrArg (· + 1) (length_walk cs (room + 1) _ h)
    | some r =>
      rw [List.filterMap_cons_some hr, hr] at h
      exact congrArg (· + 1) (length_walk cs room _ (Nat.lt_of_succ_lt_succ h))

/-! ## Tallies -/

/-- The tally of a stretch of a run with some walks: what was queued or arrived was looked at, in order, or is queued
still, and each walk gave back room for what it looked at. -/
structure Tally (m : Moment K) (ws : List (List (Sighting K))) (m' : Moment K) : Prop where
  completions : ∃ new, m'.arrived = m.arrived ++ new ∧
    m.poller.ring.completed ++ new = ws.flatten.map (·.completion) ++ m'.poller.ring.completed
  advances : m'.advances = m.advances ++ ws.map List.length

namespace Tally

theorem trans {m m₁ m₂ : Moment K} {vs ws : List (List (Sighting K))} (h : Tally m vs m₁) (h' : Tally m₁ ws m₂) :
    Tally m (vs ++ ws) m₂ := by
  obtain ⟨new, ha, hc⟩ := h.completions
  obtain ⟨new', ha', hc'⟩ := h'.completions
  refine ⟨⟨new ++ new', ?_, ?_⟩, ?_⟩
  · rw [ha', ha, List.append_assoc]
  · rw [← List.append_assoc, hc, List.append_assoc, hc', List.flatten_append, List.map_append, List.append_assoc]
  · rw [h'.advances, h.advances, List.map_append, List.append_assoc]

end Tally

theorem Idle.tally {m m' : Moment K} (h : Idle m m') : Tally m [] m' :=
  ⟨⟨[], h.arrived.trans (List.append_nil _).symm, (List.append_nil _).trans h.completed.symm⟩,
    h.advances.trans (List.append_nil _).symm⟩

/-- Giving back room brings no completions. -/
theorem trace_advance (n : Nat) (w : World K) :
    ((call (.ringAdvance n) w).2.trace.flatMap Exchange.arrived = w.trace.flatMap Exchange.arrived) ∧
      (call (.ringAdvance n) w).2.trace.flatMap Exchange.advance = w.trace.flatMap Exchange.advance ++ [n] := by
  simp [call, Exchange.arrived, Exchange.advance]

theorem tally_harvest (p : RingPoller) (w : World K) :
    Tally ⟨p, w⟩ [walk p.ring.completed Buffer.capacity ⟨p, w⟩] ⟨(p.harvest w).1.1, (p.harvest w).2⟩ := by
  have hi := idle_reap p.ring.completed Buffer.capacity (⟨p, w⟩ : Moment K)
  have hs := seen_reap p.ring.completed Buffer.capacity (⟨p, w⟩ : Moment K)
  have hc := completions_walk p.ring.completed Buffer.capacity (⟨p, w⟩ : Moment K)
  let r := reap p.ring.completed Buffer.capacity p w
  obtain ⟨ha, hv⟩ := trace_advance r.1.seen r.2
  refine ⟨⟨[], ?_, ?_⟩, ?_⟩
  · rw [List.append_nil]
    exact ha.trans hi.arrived
  · rw [List.append_nil, List.flatten_singleton, hc, ← hs]
    show _ = _ ++ r.1.poller.ring.completed.drop r.1.seen
    rw [hi.completed]
    exact (List.take_append_drop _ _).symm
  · rw [List.map_singleton, ← hs]
    exact hv.trans (congrArg (· ++ [r.1.seen]) hi.advances)

/-! ## Rounds -/

/-- The kernel's answer to a round brings completions, and gives back no room. -/
theorem trace_ringWait (queued : Nat) (t : Option Timespec) (w : World K) :
    let r := call (.ringWait queued t) w
    r.2.trace.flatMap Exchange.arrived = w.trace.flatMap Exchange.arrived ++ r.1.toOption.getD [] ∧
      r.2.trace.flatMap Exchange.advance = w.trace.flatMap Exchange.advance := by
  simp only [call, List.flatMap_append, List.flatMap_singleton]
  cases (K.answer w.kernel (.ringWait queued t)).1 <;> simp [Exchange.arrived, Exchange.advance, Except.toOption]

/-- What the tally of a wait is made of. -/
theorem stretch_tally : Stretch (Tally (K := K)) where
  refl m := (Idle.refl m).tally
  trans h h' := h.trans h'
  noted p w message := (Idle.noted p w message).tally
  asked p w queued t := by
    obtain ⟨ha, hv⟩ := trace_ringWait queued t w
    exact ⟨⟨_, ha, rfl⟩, hv.trans (List.append_nil _).symm⟩
  harvest p w := tally_harvest p w

theorem records_harvest (p : RingPoller) (w : World K) :
    (p.harvest w).1.2 = (walk p.ring.completed Buffer.capacity ⟨p, w⟩).filterMap Sighting.record :=
  records_reap p.ring.completed Buffer.capacity ⟨p, w⟩

/-- A harvest that leaves room for a record leaves no completion behind. -/
theorem drained_harvest (p : RingPoller) (w : World K) (h : (p.harvest w).1.2.length < Buffer.capacity) :
    (p.harvest w).1.1.ring.completed = [] := by
  have hi := idle_reap p.ring.completed Buffer.capacity (⟨p, w⟩ : Moment K)
  have hs := seen_reap p.ring.completed Buffer.capacity (⟨p, w⟩ : Moment K)
  rw [records_harvest] at h
  rw [length_walk _ _ _ h] at hs
  show (reap p.ring.completed Buffer.capacity p w).1.poller.ring.completed.drop _ = []
  rw [hi.completed, hs]
  exact List.drop_length

/-- What a wait that has ended leaves, after some sightings: their records, and no completion unless the buffer is
empty or full. -/
structure Settled (s : Round) (xs : List (Sighting K)) : Prop where
  records : s.buffer.raw = xs.filterMap Sighting.record
  drained : 0 < s.buffer.raw.length → s.buffer.raw.length < Buffer.capacity → s.poller.ring.completed = []

/-- A round either has no records, or ends the wait. -/
theorem settled_round (d : Deadline) (s : Round) (w : World K) (hs : s.progress = .waiting) :
    let r := round d s w
    (r.1.progress = .waiting ∧ (s.walks d w).flatten.filterMap Sighting.record = []) ∨
      (r.1.progress ≠ .waiting ∧ Settled r.1 (s.walks d w).flatten) := by
  rw [round_apply]
  unfold Round.walks
  generalize call (.ringWait s.poller.ring.completed.length (d.timespec (K.clock w.kernel))) w = r
  obtain ⟨reply, v⟩ := r
  cases reply with
  | error code =>
    obtain ⟨-, -, he | ⟨hp, hr⟩⟩ := s.after_error d code v
    · exact .inl ⟨(congrArg Round.progress he).trans hs, rfl⟩
    · exact .inr ⟨hp, hr, fun h => by rw [hr] at h; cases h⟩
  | ok cs =>
    let p : RingPoller := { s.poller with ring := s.poller.ring.arrive cs }
    let q : Round := (s.after d (.ok cs) v).1
    have hrecords : (p.harvest v).1.2 =
        [walk p.ring.completed Buffer.capacity ⟨p, v⟩].flatten.filterMap Sighting.record := by
      rw [List.flatten_singleton]
      exact records_harvest p v
    have hle : (p.harvest v).1.2.length ≤ Buffer.capacity := by
      rw [records_harvest]
      exact records_walk_le _ _ _
    have hraw : q.buffer.raw = (p.harvest v).1.2 := by
      show (s.buffer.fill (.ofList (p.harvest v).1.2)).raw = _
      rw [Buffer.raw_fill_ofList, List.take_of_length_le hle]
    by_cases hq : q.progress = .waiting
    · refine .inl ⟨hq, ?_⟩
      have hnil : (p.harvest v).1.2 = [] := by
        have hif : (if (p.harvest v).1.2.isEmpty && _ then Progress.waiting else Progress.filled) = .waiting := hq
        split at hif
        · rename_i h
          exact List.isEmpty_iff.1 (Bool.and_eq_true_iff.1 h).1
        · cases hif
      exact hrecords.symm.trans hnil
    · refine .inr ⟨hq, hraw.trans hrecords, fun _ h => ?_⟩
      rw [hraw] at h
      exact drained_harvest p v h

/-- There are no rounds when a wait has ended. -/
theorem walksIn_eq_nil {d : Deadline} {n : Nat} {s : Round} {w : World K} (h : s.progress ≠ .waiting) :
    Round.walksIn d n s w = [] := by
  cases n with
  | zero => rfl
  | succ n =>
    unfold Round.walksIn
    rw [if_neg h]

theorem settled_rounds (d : Deadline) (n : Nat) (s : Round) (w : World K) (hs : s.progress = .waiting) :
    let r := persist (·.progress == .waiting) (round d) n s w
    r.1.progress ≠ .waiting → Settled r.1 (Round.walksIn d n s w).flatten := by
  induction n generalizing s w with
  | zero => exact fun h => absurd hs h
  | succ n ih =>
    rw [persist_go (by simp [hs])]
    intro r h
    unfold Round.walksIn
    rw [if_pos hs, List.flatten_append]
    rcases settled_round d s w hs with ⟨hp, hnil⟩ | ⟨hp, hsettled⟩
    · obtain ⟨hrecords, hdrained⟩ := ih _ _ hp h
      exact ⟨by rw [List.filterMap_append, hnil]; exact hrecords, hdrained⟩
    · -- the wait has ended, so there are no more rounds
      rw [walksIn_eq_nil hp, List.flatten_nil, List.append_nil]
      show Settled (persist (·.progress == .waiting) (round d) n (round d s w).1 (round d s w).2).1 _
      rw [persist_stop (by simp [hp])]
      exact hsettled

/-! ## Operations and runs -/

/-- The buffer after a wait. -/
theorem settled_wait (p : RingPoller) (b : Buffer) (timeout : Timeout) (w : World K) :
    Settled ⟨(p.wait b timeout w).1.2.1, (p.wait b timeout w).1.2.2, .filled⟩
      (Moment.walksOf ⟨p, w⟩ (.wait b timeout)).flatten := by
  let v := w.noted (.wait p.fd timeout)
  let d := Deadline.after (K.clock v.kernel) timeout
  let r := rounds d ⟨p, b, .waiting⟩ v
  have ⟨hrecords, hdrained⟩ : Settled r.1 (Moment.walksOf ⟨p, w⟩ (.wait b timeout)).flatten :=
    settled_rounds d (v.patience + 2) ⟨p, b, .waiting⟩ v rfl (progress_rounds d ⟨p, b, .waiting⟩ v)
  have hend : (p.wait b timeout w).1.2 = (r.1.poller, r.1.buffer) := by
    rw [wait_apply]
    dsimp only
    split <;> rfl
  rw [hend]
  exact ⟨hrecords, hdrained⟩

/-- The tally of an operation. -/
theorem tally_after (m : Moment K) (o : Operation) : Tally m (m.walksOf o) (m.after o) := by
  cases o with
  | add fd e mode => exact (idle_add m.poller fd e mode m.world).tally
  | modify fd e mode => exact (idle_modify m.poller fd e mode m.world).tally
  | remove fd => exact (idle_remove m.poller fd m.world).tally
  | wake => exact (idle_wake m.poller m.world).tally
  | wait b timeout => exact stretch_tally.wait m.poller b timeout m.world

/-- The tally of a run. -/
theorem tally_run : ∀ (os : List Operation) (m : Moment K), Tally m (m.walks os) (m.run os)
  | [], _ => (Idle.refl _).tally
  | o :: os, m => (tally_after m o).trans (tally_run os (m.after o))

theorem records_answer (m : Moment K) (o : Operation) :
    (m.answer o).records = (m.walksOf o).flatten.filterMap Sighting.record := by
  cases o with
  | wait b timeout => exact (settled_wait m.poller b timeout m.world).records
  | _ => rfl

/-- Unless its buffer is empty or full, a wait leaves no completion behind. -/
theorem drained_after (m : Moment K) (o : Operation) (h : 0 < (m.answer o).records.length)
    (hlt : (m.answer o).records.length < Buffer.capacity) : (m.after o).poller.ring.completed = [] := by
  cases o with
  | wait b timeout => exact (settled_wait m.poller b timeout m.world).drained h hlt
  | _ => cases h

theorem delivered_run : ∀ (os : List Operation) (m : Moment K),
    m.delivered os = (m.sightings os).filterMap Sighting.record
  | [], _ => rfl
  | o :: os, m => by
    rw [Moment.delivered, records_answer, delivered_run os (m.after o)]
    rw [Moment.sightings, Moment.sightings, Moment.walks, List.flatten_append, List.filterMap_append]

/-- Creating a ring brings no completions. -/
theorem idle_created (capacity : Nat) (s : K.State) :
    Idle ⟨{ ring := { capacity } }, { kernel := s }⟩ (Moment.created capacity s) := by
  unfold Moment.created init
  simp only [Sys.bind_apply]
  have hc : ∀ p : RingPoller, p.ring.completed = [] →
      Idle ⟨{ ring := { capacity } }, { kernel := s }⟩
        (⟨p, (call (.ringCreate depth 0) ({ kernel := s } : World K)).2⟩ : Moment K) := fun p hp => ⟨hp, rfl, rfl⟩
  generalize call (.ringCreate depth 0) ({ kernel := s } : World K) = r at hc
  obtain ⟨reply, v⟩ := r
  cases reply with
  | error code => exact (hc _ rfl).trans (.noted _ _ _)
  | ok offer =>
    dsimp only [Sys.ite_apply]
    cases offer <;> split <;> exact (hc _ rfl).trans (.noted _ _ _)

/-- **Delivery.** In a run, waits leave in their buffers exactly what the completions that were looked at become, in
order. The completions that arrived were looked at one after the other, each of them once, or are queued still; each
walk gave back room for just those that it looked at. A completion that has an owner finds its registration, under its
token. A wait after the run whose buffer is neither empty nor full leaves no completion behind. -/
theorem delivery_exact (capacity : Nat) (s : K.State) (os : List Operation) :
    let m := Moment.created capacity s
    m.delivered os = (m.sightings os).filterMap Sighting.record ∧
      (m.run os).arrived = (m.sightings os).map (·.completion) ++ (m.run os).poller.ring.completed ∧
      (m.run os).advances = (m.walks os).map List.length ∧
      (∀ x ∈ m.sightings os, x.completion.token ≠ ignoreToken →
        ∀ fd, x.poller.owners.get? x.completion.token = some fd →
          ∃ r, x.poller.registrations.get? fd = some r ∧ r.token = x.completion.token) ∧
      ∀ o, 0 < ((m.run os).answer o).records.length → ((m.run os).answer o).records.length < Buffer.capacity →
        ((m.run os).after o).poller.ring.completed = [] := by
  intro m
  have hcreated := idle_created capacity s
  have htally := tally_run os m
  refine ⟨delivered_run os m, ?_, ?_, fun x hx h₀ fd ho => ?_, fun o => drained_after (m.run os) o⟩
  · obtain ⟨new, ha, hc⟩ := htally.completions
    have ha₀ : m.arrived = [] := hcreated.arrived
    have hc₀ : m.poller.ring.completed = [] := hcreated.completed
    rw [ha₀, List.nil_append] at ha
    rw [hc₀, List.nil_append] at hc
    rw [ha, hc]
    rfl
  · have hv₀ : m.advances = [] := hcreated.advances
    rw [htally.advances, hv₀, List.nil_append]
  · obtain ⟨ds, hp⟩ := (account_run os m (sound_created capacity s)).before x hx
    exact (hp.sound (sound_created capacity s)).owner _ fd h₀ ho

/-- Stale and canceled completions among others: a wait looks past what it drops, and the next one drops what the
former disarmed. -/
theorem delivery_exact_stale :
    let script : Script Service Entry :=
      [(.ringWait, { completions := [⟨9, 1, false⟩, ⟨0, 0, false⟩] }),
        (.ringWait, { completions := [⟨2, 1, true⟩, ⟨1, 0, false⟩, ⟨2, -125, false⟩] }),
        (.ringWait, { completions := [⟨2, 4, false⟩, ⟨1, 0, false⟩] })]
    let os := [.add 5 (Event.all 7) .edge, .wait Buffer.empty none]
    let o := .wait Buffer.empty (some 0)
    let m : Moment Replay.kernel := Moment.created 1 ({ script } : Replay)
    m.delivered (os ++ [o]) = [.poll ⟨1, 7⟩, .poll ⟨0, notifyKey⟩, .poll ⟨0, notifyKey⟩] ∧
      (m.run (os ++ [o])).advances = [2, 3, 2] ∧
      m.delivered (os ++ [o]) = (m.sightings (os ++ [o])).filterMap Sighting.record ∧
      ((m.run os).answer o).records.length = 1 ∧ ((m.run os).after o).poller.ring.completed = [] :=
  ⟨by decide +kernel, by decide +kernel, (@delivery_exact Replay.kernel 1 _ _).1, by decide +kernel,
    (@delivery_exact Replay.kernel 1 _ _).2.2.2.2 _ (by decide +kernel) (by decide +kernel)⟩

end Vigil.RingPoller
