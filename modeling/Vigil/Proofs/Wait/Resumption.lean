import Vigil.Backend
import Vigil.Proofs.Calls
import Vigil.Proofs.RingPoller.Delivery
import Vigil.Proofs.Wait.Turn

/-!
# Interrupted waits

Each time that a wait asks its kernel, it asks for what is left of its timeout at that moment. It asks again just when
it was interrupted, or when a ring's completions gave no record and time is left (`Backend.wait_resumes`).

Poll sets and filter queues repeat one attempt (`Epoll.polls`, `Kqueue.polls`), and what they do afterwards is no wait
(`Epoll.reaches_wait`, `Kqueue.reaches_wait`). A ring goes round after round (`resumed_rounds`), and each round is one
turn (`turn_round`).
-/

namespace Vigil

variable {K : Kernel}

/-! ## Poll sets -/

namespace Epoll

theorem polls (p : Epoll) (timeout : Timeout) (start : Int) :
    Polls (K := K) .epoll timeout start (p.poll (Deadline.after start timeout)) where
  asks w := by
    rw [poll_apply]
    exact ⟨_, .called _ w, rfl, Deadline.millis_after start _ timeout, rfl⟩
  patience_lt w h := by
    rw [poll_apply] at h ⊢
    exact patience_call_lt h

/-- What follows the last answer to a wait is no wait. -/
theorem reaches_wait (p : Epoll) (b : Buffer) (timeout : Timeout) (w : World K) :
    let v := (note (.wait p.fd timeout) w).2
    Reaches (·.isWait = false) (insist interrupted (p.poll (Deadline.after (K.clock v.kernel) timeout)) v).2
      (p.wait b timeout w).2 := by
  rw [wait_apply]
  dsimp only
  split
  · exact Reaches.refl.noted _
  · exact (Reaches.refl.noted _).trans ((p.built_reattach (fun _ _ _ _ => rfl) fun _ _ => rfl).confined _)

theorem resumed_wait (p : Epoll) (b : Buffer) (timeout : Timeout) (w : World K) {again : Nat → Turn → Int → Prop}
    (hagain : ∀ i t c, again i t c ↔ t.exchange.isInterrupted = true) :
    Resumed .epoll timeout again w (p.wait b timeout w).2 := by
  exact (p.polls timeout (K.clock w.kernel)).resumed hagain (.noted (.backend .epoll (.wait p.fd timeout)) w)
    (p.reaches_wait b timeout w)

end Epoll

/-! ## Filter queues -/

namespace Kqueue

theorem polls (q : Kqueue) (timeout : Timeout) (start : Int) :
    Polls (K := K) .kqueue timeout start (q.poll (Deadline.after start timeout)) where
  asks w := by
    rw [poll_apply]
    exact ⟨_, .called _ w, rfl, Deadline.timespec_after start _ timeout, rfl⟩
  patience_lt w h := by
    rw [poll_apply] at h ⊢
    exact patience_call_lt h

/-- What follows the last answer to a wait is no wait. -/
theorem reaches_wait (q : Kqueue) (b : Buffer) (timeout : Timeout) (w : World K) :
    let v := (note (.wait q.fd timeout) w).2
    Reaches (·.isWait = false) (insist interrupted (q.poll (Deadline.after (K.clock v.kernel) timeout)) v).2
      (q.wait b timeout w).2 := by
  rw [wait_apply]
  dsimp only
  split
  · exact Reaches.refl.noted _
  · exact (Reaches.refl.noted _).trans ((q.built_reattach (fun _ _ => rfl) fun _ _ => rfl).confined _)

theorem resumed_wait (q : Kqueue) (b : Buffer) (timeout : Timeout) (w : World K) {again : Nat → Turn → Int → Prop}
    (hagain : ∀ i t c, again i t c ↔ t.exchange.isInterrupted = true) :
    Resumed .kqueue timeout again w (q.wait b timeout w).2 := by
  exact (q.polls timeout (K.clock w.kernel)).resumed hagain (.noted (.backend .kqueue (.wait q.fd timeout)) w)
    (q.reaches_wait b timeout w)

end Kqueue

/-! ## Rings -/

namespace RingPoller

/-- The records that each round of a wait gives, in at most `n` more rounds. A round without completions gives none. -/
def Round.yieldsIn (d : Deadline) : Nat → Round → World K → List (List Record)
  | 0, _, _ => []
  | n + 1, s, w =>
    if s.progress = .waiting then
      (s.walks d w).flatten.filterMap Sighting.record :: yieldsIn d n (round d s w).1 (round d s w).2
    else []

/-- Whether the turn at a place makes a wait go on: it was interrupted, or its completions gave no record and time is
left at that moment. -/
def GoesOn (timeout : Timeout) (start : Int) (yields : List (List Record)) (i : Nat) (t : Turn) (c : Int) : Prop :=
  t.exchange.isInterrupted = true ∨
    t.exchange.isArrival = true ∧ yields[i]? = some [] ∧ ∀ limit, timeout = some limit → c - start < limit

/-- Of the errors, only an interruption makes a wait go on. -/
theorem Round.waiting_after_error (d : Deadline) (s : Round) (code : Code) (w : World K) (hs : s.progress = .waiting) :
    (s.after d (.error code) w).1.progress = .waiting ↔ code = Code.interrupted := by
  rw [Round.after, Sys.ite_apply, Sys.ite_apply]
  by_cases hi : code = Code.interrupted
  · rw [if_pos hi]
    exact iff_of_true hs hi
  · rw [if_neg hi]
    refine iff_of_false (fun h => ?_) hi
    split at h <;> cases h

/-- Completions make a wait go on if they give no record and time is left once they are consumed. -/
theorem Round.waiting_after_ok (d : Deadline) (s : Round) (cs : List Completion) (w : World K) :
    let p : RingPoller := { s.poller with ring := s.poller.ring.arrive cs }
    let r := s.after d (.ok cs) w
    r.1.progress = .waiting ↔
      (walk p.ring.completed Buffer.capacity ⟨p, w⟩).filterMap Sighting.record = [] ∧
        d.remaining (K.clock r.2.kernel) ≠ 0 := by
  intro p r
  rw [← records_harvest]
  show (if (p.harvest w).1.2.isEmpty && d.remaining (K.clock r.2.kernel) ≠ 0 then Progress.waiting else .filled) =
    .waiting ↔ _
  simp

/-- A round is one turn of a wait, and makes it go on just as its turn tells. -/
theorem turn_round (timeout : Timeout) (start : Int) (s : Round) (w : World K) (hs : s.progress = .waiting) :
    ∃ t xs, Passage w (t.exchange :: xs) (round (Deadline.after start timeout) s w).2 ∧
      turns (K.clock w.kernel) (t.exchange :: xs) = [t] ∧ t.asked = K.clock w.kernel ∧
      t.exchange.call.Asks (timeout.left (t.asked - start)) .ring ∧
      ∀ yields, ((round (Deadline.after start timeout) s w).1.progress = .waiting ↔
        GoesOn timeout start ((s.walks (Deadline.after start timeout) w).flatten.filterMap Sighting.record :: yields)
          0 t (K.clock (round (Deadline.after start timeout) s w).2.kernel)) := by
  rw [round_apply]
  unfold Round.walks
  have hp := Passage.called
    (.ringWait s.poller.ring.completed.length ((Deadline.after start timeout).timespec (K.clock w.kernel))) w
  generalize call _ w = r at hp ⊢
  obtain ⟨reply, v⟩ := r
  have hafter : Confined (K := K) (·.isWait = false) (s.after (Deadline.after start timeout) reply) :=
    (s.built_after (fun _ => rfl) (fun _ => rfl) _ _).confined
  obtain ⟨xs, hq, hxs⟩ := (hafter v).passage
  refine ⟨⟨K.clock w.kernel, _⟩, xs, hp.trans hq, ?_, rfl, Deadline.timespec_after _ _ _, fun yields => ?_⟩
  · exact (turns_cons rfl xs).trans (congrArg _ (turns_eq_nil hxs))
  · unfold GoesOn
    rw [← Deadline.remaining_after_ne_zero]
    cases reply with
    | error code =>
      rw [Round.waiting_after_error _ _ _ _ hs]
      show _ ↔ (code == Code.interrupted) = true ∨ false = true ∧ _
      simp
    | ok cs =>
      refine (Round.waiting_after_ok _ _ _ _).trans ?_
      show _ ↔ false = true ∨ true = true ∧ _
      simp

theorem resumed_rounds (timeout : Timeout) (start : Int) (n : Nat) (s : Round) (w : World K)
    (hs : s.progress = .waiting) :
    let d := Deadline.after start timeout
    let r := persist (·.progress == .waiting) (round d) n s w
    r.1.progress ≠ .waiting → ∃ xs t ts, Passage w xs r.2 ∧ turns (K.clock w.kernel) xs = t :: ts ∧
      t.asked = K.clock w.kernel ∧ Asking .ring timeout start (t :: ts) ∧
      Resumes (GoesOn timeout start (Round.yieldsIn d n s w)) (t :: ts) (K.clock r.2.kernel) ∧
      ∃ u, (t :: ts).getLast? = some u ∧ u.exchange.isInterrupted = false := by
  intro d
  induction n generalizing s w with
  | zero => exact fun h => absurd hs h
  | succ n ih =>
    rw [persist_go (by simp [hs])]
    intro r hr
    obtain ⟨t, xs, hp, hturns, hasked, hasks, hgo⟩ := turn_round timeout start s w hs
    have hy : Round.yieldsIn d (n + 1) s w = (s.walks d w).flatten.filterMap Sighting.record ::
        Round.yieldsIn d n (round d s w).1 (round d s w).2 := by
      conv => lhs; unfold Round.yieldsIn
      rw [if_pos hs]
    by_cases hw : (round d s w).1.progress = .waiting
    · -- the turn makes the wait go on, and the other turns are those of the rounds to come
      obtain ⟨ys, u, us, hq, hturns', hasked', hasking, hresumes, hlast⟩ := ih _ _ hw hr
      have hall : turns (K.clock w.kernel) (t.exchange :: xs ++ ys) = t :: u :: us := by
        rw [turns_append, hturns, ← hp.clock, hturns']
        rfl
      refine ⟨_, t, u :: us, hp.trans hq, hall, hasked, ?_, ?_, ?_⟩
      · exact List.forall_mem_cons.2 ⟨hasks, hasking⟩
      · rw [hy]
        refine Resumes.cons ?_ hresumes
        rw [hasked']
        exact (hgo _).1 hw
      · rw [List.getLast?_cons_cons]
        exact hlast
    · -- the turn ends the wait, so there are no more rounds
      have hend : r = round d s w := persist_stop (by simp [hw]) _ _
      rw [hend, hy]
      have hnot : t.exchange.isInterrupted = false := Bool.eq_false_iff.2 fun hi => hw ((hgo []).2 (.inl hi))
      exact ⟨_, t, [], hp, hturns, hasked, List.forall_mem_singleton.2 hasks, .singleton fun h => hw ((hgo _).2 h), t,
        rfl, hnot⟩

theorem resumed_wait (p : RingPoller) (b : Buffer) (timeout : Timeout) (w : World K) :
    let v := w.noted (.wait p.fd timeout)
    Resumed .ring timeout (GoesOn timeout (K.clock w.kernel)
      (Round.yieldsIn (Deadline.after (K.clock v.kernel) timeout) (v.patience + 2) ⟨p, b, .waiting⟩ v))
      w (p.wait b timeout w).2 := by
  intro v
  let d := Deadline.after (K.clock v.kernel) timeout
  obtain ⟨xs, t, ts, hp, hturns, -, hasking, hresumes, hlast⟩ :=
    resumed_rounds timeout (K.clock v.kernel) (v.patience + 2) ⟨p, b, .waiting⟩ v rfl
      (progress_rounds d ⟨p, b, .waiting⟩ v)
  have hend : Passage (rounds d ⟨p, b, .waiting⟩ v).2 [] (p.wait b timeout w).2 := by
    rw [wait_apply]
    dsimp only
    split
    · exact .refl _
    · exact .noted _ _
  have hstart : Passage w [] v := .noted (.backend .ring (.wait p.fd timeout)) w
  have hall : turns (K.clock w.kernel) (xs ++ []) = t :: ts := by
    rw [List.append_nil]
    exact hturns
  refine ⟨xs ++ [], (hstart.trans hp).trans hend, ?_, ?_, ?_⟩
  · rw [hall]
    exact hasking
  · rw [hall, hend.clock]
    exact hresumes
  · rw [hall]
    exact hlast

end RingPoller

/-! ## Backends -/

namespace Backend

/-- The records that each round of a wait gives. Only rings have rounds, all other backends hand on what their kernel
stores. -/
def yields (buffer : Buffer) (timeout : Timeout) (w : World K) : Backend → List (List Record)
  | ring p =>
    let v := w.noted (.wait p.fd timeout)
    RingPoller.Round.yieldsIn (Deadline.after (K.clock v.kernel) timeout) (v.patience + 2) ⟨p, buffer, .waiting⟩ v
  | _ => []

theorem resumed_wait (b : Backend) (buffer : Buffer) (timeout : Timeout) (w : World K) :
    Resumed b.kind timeout (RingPoller.GoesOn timeout (K.clock w.kernel) (b.yields buffer timeout w)) w
      (b.wait buffer timeout w).2 := by
  have hnone : ∀ i (t : Turn) c, RingPoller.GoesOn timeout (K.clock w.kernel) [] i t c ↔
      t.exchange.isInterrupted = true := by
    intro i t c
    simp [RingPoller.GoesOn]
  cases b with
  | epoll p => exact p.resumed_wait buffer timeout w hnone
  | ring p => exact p.resumed_wait buffer timeout w
  | kqueue q => exact q.resumed_wait buffer timeout w hnone

/-- **Resumption.** A wait makes at least one waiting call, and each of them asks for exactly what is left of the
timeout. Another one follows just if the call was interrupted, or if completions arrived on a ring, gave no record, and
time is left once they are consumed. So the last one was not interrupted. -/
theorem wait_resumes (b : Backend) (buffer : Buffer) (timeout : Timeout) (w : World K) :
    let start := K.clock w.kernel
    let r := b.wait buffer timeout w
    ∃ xs, r.2.trace = w.trace ++ xs ∧
      (∀ t ∈ turns start xs, t.exchange.call.Asks (timeout.left (t.asked - start)) b.kind) ∧
      (∀ i t, (turns start xs)[i]? = some t →
        let stop := ((turns start xs)[i + 1]?.map Turn.asked).getD (K.clock r.2.kernel)
        (i + 1 < (turns start xs).length ↔ t.exchange.isInterrupted = true ∨
          t.exchange.isArrival = true ∧ (b.yields buffer timeout w)[i]? = some [] ∧
            ∀ limit, timeout = some limit → stop - start < limit)) ∧
      ∃ t, (turns start xs).getLast? = some t ∧ t.exchange.isInterrupted = false := by
  intro start r
  obtain ⟨xs, hp, hasking, hresumes, hlast⟩ := b.resumed_wait buffer timeout w
  exact ⟨xs, hp.trace, hasking, hresumes, hlast⟩

/-- Two milliseconds and a half are gone when a wait of ten is interrupted: it asks for eight more. -/
example :
    let script : Script Service Entry := [(.epollWait, { error := some Code.interrupted, elapsed := 2500000 })]
    let r := (Backend.epoll { fd := 3 }).wait Buffer.empty (some 10000000) (Replay.world { script })
    r.2.trace.map Exchange.call = [.epollWait 3 1024 10, .epollWait 3 1024 8] := by
  decide +kernel

end Backend

end Vigil
