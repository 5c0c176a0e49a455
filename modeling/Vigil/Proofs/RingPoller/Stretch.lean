import Vigil.Proofs.RingPoller.Run

/-!
# Stretches of a wait

A wait goes round after round, and each round asks the kernel and walks over the completions. So what is true from the
moment before to the moment after each of these parts, with the walks in between, and of stretches that join
(`Stretch`), is true of the wait as a whole (`Stretch.wait`).
-/

namespace Vigil.RingPoller

variable {K : Kernel}

/-- A relation of the moments before and after a stretch of a wait, and the walks in between. It holds of the parts of
a wait, and of stretches that join. -/
structure Stretch (R : Moment K → List (List (Sighting K)) → Moment K → Prop) : Prop where
  refl : ∀ m, R m [] m
  trans : ∀ {m m₁ m₂ : Moment K} {vs ws : List (List (Sighting K))}, R m vs m₁ → R m₁ ws m₂ → R m (vs ++ ws) m₂
  noted : ∀ (p : RingPoller) (w : World K) (message : Message), R ⟨p, w⟩ [] ⟨p, w.noted message⟩
  /-- The kernel is asked for completions, and adds those of its answer. -/
  asked : ∀ (p : RingPoller) (w : World K) (queued : Nat) (t : Option Timespec),
    let r := call (.ringWait queued t) w
    R ⟨p, w⟩ [] ⟨{ p with ring := p.ring.arrive (r.1.toOption.getD []) }, r.2⟩
  harvest : ∀ (p : RingPoller) (w : World K),
    R ⟨p, w⟩ [walk p.ring.completed Buffer.capacity ⟨p, w⟩] ⟨(p.harvest w).1.1, (p.harvest w).2⟩

namespace Stretch

variable {R : Moment K → List (List (Sighting K)) → Moment K → Prop}

theorem round (h : Stretch R) (d : Deadline) (s : Round) (w : World K) :
    R ⟨s.poller, w⟩ (s.walks d w) ⟨(round d s w).1.poller, (round d s w).2⟩ := by
  rw [round_apply]
  unfold Round.walks
  have ha := h.asked s.poller w s.poller.ring.completed.length (d.timespec (K.clock w.kernel))
  generalize call (.ringWait s.poller.ring.completed.length (d.timespec (K.clock w.kernel))) w = r at ha ⊢
  obtain ⟨reply, v⟩ := r
  cases reply with
  | error code =>
    have hv : R ⟨s.poller, w⟩ [] ⟨{ s.poller with ring := s.poller.ring.arrive [] }, v⟩ := ha
    rw [Ring.arrive_nil] at hv
    obtain ⟨hp, hw | ⟨message, hw⟩, -⟩ := s.after_error d code v
    · rw [hp, hw]
      exact hv
    · rw [hp, hw]
      exact h.trans hv (h.noted _ _ _)
  | ok cs => exact h.trans ha (h.harvest _ v)

theorem rounds (h : Stretch R) (d : Deadline) (n : Nat) (s : Round) (w : World K) :
    let r := persist (·.progress == .waiting) (RingPoller.round d) n s w
    R ⟨s.poller, w⟩ (Round.walksIn d n s w) ⟨r.1.poller, r.2⟩ := by
  induction n generalizing s w with
  | zero => exact h.refl _
  | succ n ih =>
    unfold persist Round.walksIn
    by_cases hp : s.progress = .waiting
    · rw [if_pos hp, if_pos (by simp [hp])]
      exact h.trans (h.round d s w) (ih _ _)
    · rw [if_neg hp, if_neg (by simp [hp])]
      exact h.refl _

/-- What holds of the parts of a wait holds of all of it. -/
theorem wait (h : Stretch R) (p : RingPoller) (b : Buffer) (timeout : Timeout) (w : World K) :
    R ⟨p, w⟩ (Moment.walksOf ⟨p, w⟩ (.wait b timeout)) ⟨(p.wait b timeout w).1.2.1, (p.wait b timeout w).2⟩ := by
  let v := w.noted (.wait p.fd timeout)
  let d := Deadline.after (K.clock v.kernel) timeout
  let r := RingPoller.rounds d ⟨p, b, .waiting⟩ v
  have hstart := h.trans (h.noted p w (.wait p.fd timeout)) (h.rounds d (v.patience + 2) ⟨p, b, .waiting⟩ v)
  have hrounds : R ⟨p, w⟩ (Moment.walksOf ⟨p, w⟩ (.wait b timeout)) ⟨r.1.poller, r.2⟩ := hstart
  rw [wait_apply]
  dsimp only
  split
  · exact hrounds
  · have hend := h.trans hrounds (h.noted r.1.poller r.2 (.fired r.1.poller.fd r.1.buffer.length))
    rw [List.append_nil] at hend
    exact hend

end Stretch

end Vigil.RingPoller
