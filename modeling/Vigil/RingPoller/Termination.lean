import Vigil.RingPoller.Wait

/-!
# Polling on a ring: the end of a wait

Waits on a ring go round after rounds that brought nothing but stale completions, or an interruption. Each such round
lowers `Round.measure`: it uses up the completions that were queued, and if there were none, some of the kernel's
patience.

* **What a polled ring asks of its kernel** (`built_add` to `built_wait`): to take requests and, during a wait, for
  completions and their room. No operation makes another call.
* **What a fruitless walk leaves** (`reap_eq_nil`): a walk over completions that gives no record has looked at all of
  them.
* **The end** (`rounds_induct`): what each round keeps holds when the wait ends, and then the wait has come to an end
  of its own (`progress_rounds`).
-/

namespace Vigil.RingPoller

variable {K : Kernel}

/-! ## The calls of a polled ring -/

section

variable {P : Call → Prop} (hsubmit : ∀ requests, P (.ringSubmit requests))

include hsubmit

theorem built_submit (p : RingPoller) : Built (K := K) P p.submit :=
  (Built.insist (.call (hsubmit _))).bind fun r => by
    cases r with
    | error code => exact (Built.note _).bind fun _ => .pure _
    | ok _ => exact .pure _

theorem built_reserve (p : RingPoller) : Built (K := K) P p.reserve :=
  .ite (.pure p) ((built_submit hsubmit p).bind fun _ => .pure _)

theorem built_cancel (p : RingPoller) (r : Registration) : Built (K := K) P (p.cancel r) :=
  .ite (.pure p) ((built_reserve hsubmit _).bind fun _ => .pure _)

theorem built_arm (p : RingPoller) (fd : Descriptor) (r : Registration) : Built (K := K) P (p.arm fd r) :=
  .ite (.pure _) ((built_reserve hsubmit p).bind fun _ => .pure _)

theorem built_renew (p : RingPoller) : ∀ rearm, Built (K := K) P (p.renew rearm)
  | none => .pure _
  | some (_, _) => (built_arm hsubmit _ _ _).bind fun _ => (built_submit hsubmit _).bind fun _ => .pure _

theorem built_reap : ∀ (cs : List Completion) (room : Nat) (p : RingPoller), Built (K := K) P (reap cs room p)
  | [], _, _ => .pure _
  | _ :: _, 0, _ => .pure _
  | _ :: cs, _ + 1, _ => (built_renew hsubmit _ _).bind fun _ => (built_reap cs _ _).bind fun _ => .pure _

theorem built_harvest (hadvance : ∀ n, P (.ringAdvance n)) (p : RingPoller) : Built (K := K) P p.harvest :=
  (built_reap hsubmit _ _ _).bind fun _ => (Built.call (hadvance _)).bind fun _ => .pure _

theorem Round.built_after (hadvance : ∀ n, P (.ringAdvance n)) (d : Deadline) (s : Round)
    (reply : Fallible (List Completion)) : Built (K := K) P (s.after d reply) := by
  cases reply with
  | error code => exact .ite (.pure s) (.ite (.pure _) ((Built.note _).bind fun _ => .pure _))
  | ok cs => exact (built_harvest hsubmit hadvance _).bind fun _ => Built.now.bind fun _ => .pure _

end

section

variable {P : Call → Prop} (hP : ∀ c : Call, c.isOfRingWait = true → P c)

include hP

theorem built_add (p : RingPoller) (fd : Descriptor) (e : Event) (mode : Mode) :
    Built (K := K) P (p.add fd e mode) := by
  have hsubmit : ∀ requests, P (.ringSubmit requests) := fun _ => hP _ rfl
  exact (Built.note _).bind fun _ => .ite (.pure _) <| .ite (.pure _) <|
    (built_arm hsubmit _ _ _).bind fun q => .ite (.pure _) (built_submit hsubmit q)

theorem built_modify (p : RingPoller) (fd : Descriptor) (e : Event) (mode : Mode) :
    Built (K := K) P (p.modify fd e mode) := by
  have hsubmit : ∀ requests, P (.ringSubmit requests) := fun _ => hP _ rfl
  refine (Built.note _).bind fun _ => .ite (.pure _) ?_
  split
  · exact .pure _
  · exact (built_cancel hsubmit _ _).bind fun _ => (built_arm hsubmit _ _ _).bind fun _ =>
      (built_submit hsubmit _).bind fun _ => .pure _

theorem built_remove (p : RingPoller) (fd : Descriptor) : Built (K := K) P (p.remove fd) := by
  have hsubmit : ∀ requests, P (.ringSubmit requests) := fun _ => hP _ rfl
  refine (Built.note _).bind fun _ => ?_
  split
  · exact .pure _
  · exact (built_cancel hsubmit _ _).bind fun _ => built_submit hsubmit _

theorem built_wake (p : RingPoller) : Built (K := K) P p.wake := by
  have hsubmit : ∀ requests, P (.ringSubmit requests) := fun _ => hP _ rfl
  have hsignal : Built (K := K) P p.signal := (built_reserve hsubmit p).bind fun _ =>
    .ite (built_submit hsubmit _) (.pure _)
  exact (Built.note _).bind fun _ => .ite
    (hsignal.bind fun _ => .ite ((Built.note _).bind fun _ => .pure _) (.pure _)) (.pure p)

theorem built_round (d : Deadline) (s : Round) : Built (K := K) P (round d s) :=
  Built.now.bind fun _ => (Built.call (hP _ rfl)).bind fun _ =>
    s.built_after (fun _ => hP _ rfl) (fun _ => hP _ rfl) d _

theorem built_wait (p : RingPoller) (b : Buffer) (timeout : Timeout) :
    Built (K := K) P (p.wait b timeout) := by
  have hrounds : ∀ d s, Built (K := K) P (rounds d s) := fun d s =>
    Built.patience.bind fun _ => .persist (built_round hP d) _ s
  refine (Built.note _).bind fun _ => Built.now.bind fun _ => (hrounds _ _).bind fun s => ?_
  split
  · exact .pure _
  · exact (Built.note _).bind fun _ => .pure _

end

/-! ## Walks that give no record -/

theorem ring_consume (p : RingPoller) (c : Completion) : (p.consume c).poller.ring = p.ring := by
  unfold consume
  split
  · rfl
  · split
    · rfl
    · split
      · rfl
      · split
        · rfl
        · dsimp only
          split <;> split <;> rfl

/-- Only a completion that gives a record has its registration armed again. -/
theorem rearm_consume {p : RingPoller} {c : Completion} (h : (p.consume c).record = none) :
    (p.consume c).rearm = none := by
  unfold consume at h ⊢
  split
  · rfl
  · rename_i h₀
    rw [if_neg h₀] at h
    split
    · rfl
    · rename_i h₁
      rw [if_neg h₁] at h
      split
      · rfl
      · rename_i fd hfd
        simp only [hfd] at h
        split
        · rfl
        · rename_i r hr
          simp only [hr] at h
          dsimp only
          split
          · rfl
          · rename_i h₂
            simp [h₂] at h

/-- A walk that gives no record has looked at every completion, and leaves the ring as it was. -/
theorem reap_eq_nil : ∀ (cs : List Completion) (room : Nat) (p : RingPoller) (w : World K),
    (reap cs (room + 1) p w).1.records = [] →
      (reap cs (room + 1) p w).1.seen = cs.length ∧ (reap cs (room + 1) p w).1.poller.ring = p.ring
  | [], _, _, _, _ => ⟨rfl, rfl⟩
  | c :: cs, room, p, w, h => by
    have hr : (p.consume c).record = none := by
      cases hc : (p.consume c).record with
      | none => rfl
      | some r =>
        replace h := (List.append_eq_nil_iff.1 h).1
        rw [hc] at h
        cases h
    have hs : reap (c :: cs) (room + 1) p w =
        (let rest := reap cs (room + 1) (p.consume c).poller w
         (⟨rest.1.poller, rest.1.records, rest.1.seen + 1⟩, rest.2)) := by
      conv => lhs; unfold reap
      simp only [bind, StateT.bind, rearm_consume hr, renew, hr]
      rfl
    rw [hs] at h ⊢
    have ⟨h₁, h₂⟩ := reap_eq_nil cs room (p.consume c).poller w h
    exact ⟨congrArg (· + 1) h₁, h₂.trans (ring_consume p c)⟩

/-- A harvest without records leaves no completion behind. -/
theorem completed_harvest {p : RingPoller} {w : World K} (h : (p.harvest w).1.2 = []) :
    (p.harvest w).1.1.ring.completed = [] := by
  have ⟨h₁, h₂⟩ := reap_eq_nil p.ring.completed 1023 p w h
  show (Ring.advance (reap p.ring.completed Buffer.capacity p w).1.poller.ring _).completed = []
  rw [show Buffer.capacity = 1023 + 1 from rfl, h₂]
  simp only [Ring.advance, h₁, List.drop_length]

/-! ## Rounds -/

/-- What a round that goes on has used up: the kernel's patience, and completions that were left in the ring. -/
def Round.measure (s : Round) (w : World K) : Nat :=
  w.patience + if s.poller.ring.completed = [] then 0 else 1

theorem measure_after {d : Deadline} {s : Round} {reply : Fallible (List Completion)} {w v : World K}
    {t : Option Timespec} (hle : v.patience ≤ w.patience)
    (hlt : retried (.ringWait s.poller.ring.completed.length t) reply = true → v.patience < w.patience)
    (h : (s.after d reply v).1.progress = .waiting) :
    Round.measure (s.after d reply v).1 (s.after d reply v).2 < Round.measure s w := by
  cases reply with
  | error code =>
    dsimp only [Round.after] at h ⊢
    by_cases hi : code = Code.interrupted
    · rw [if_pos hi]
      exact Nat.add_lt_add_right (hlt (by simp [retried, hi])) _
    · rw [if_neg hi] at h
      split at h <;> cases h
  | ok cs =>
    let q : RingPoller := { s.poller with ring := s.poller.ring.arrive cs }
    have hp : (q.harvest v).2.patience ≤ v.patience :=
      (built_harvest (fun _ => rfl) (fun _ => rfl) q).confined.patient v
    have hn : (q.harvest v).1.2 = [] := by
      have : (if (q.harvest v).1.2.isEmpty && _ then Progress.waiting else Progress.filled) = Progress.waiting := h
      split at this
      · simp_all
      · cases this
    show (q.harvest v).2.patience + (if (q.harvest v).1.1.ring.completed = [] then 0 else 1) <
      w.patience + if s.poller.ring.completed = [] then 0 else 1
    rw [if_pos (completed_harvest hn)]
    by_cases hc : s.poller.ring.completed = []
    · have := hlt (by simp [retried, hc])
      omega
    · rw [if_neg hc]
      omega

/-- Each round after which the wait goes on lowers the measure. -/
theorem measure_round {d : Deadline} {s : Round} {w : World K} (h : (round d s w).1.progress = .waiting) :
    Round.measure (round d s w).1 (round d s w).2 < Round.measure s w :=
  measure_after (K.patience_le _ _ rfl) (K.patience_lt _ _) h

/-- What each round keeps holds when the wait ends, and the wait has then come to an end of its own. -/
theorem rounds_induct {d : Deadline} {inv : Round → World K → Prop} {s : Round} {w : World K} (first : inv s w)
    (h : ∀ s w, inv s w → s.progress = .waiting → inv (round d s w).1 (round d s w).2) :
    inv (rounds d s w).1 (rounds d s w).2 ∧ (rounds d s w).1.progress ≠ .waiting := by
  have hbound : ((s.progress == .waiting) = true → s.measure w < w.patience + 2) := fun _ => by
    unfold Round.measure
    split <;> omega
  have ⟨hi, ha⟩ := persist_induct Round.measure
    (fun s w hi ha => ⟨h s w hi (eq_of_beq ha), fun hb => measure_round (eq_of_beq hb)⟩) _ s w first hbound
  exact ⟨hi, fun he => Bool.eq_false_iff.1 ha (beq_iff_eq.2 he)⟩

/-- A wait comes to an end of its own, whatever the kernel answers. -/
theorem progress_rounds (d : Deadline) (s : Round) (w : World K) : (rounds d s w).1.progress ≠ .waiting :=
  (@rounds_induct K d (fun _ _ => True) s w trivial fun _ _ _ _ => trivial).2

end Vigil.RingPoller
