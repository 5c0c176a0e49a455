import Vigil.Proofs.RingPoller.Invariant
import Vigil.Proofs.Wait.Passage

/-!
# Room for requests

A ring whose queue has any room at all never runs out of it while its kernel accepts what is handed over.

- `Ring.Fits`: the queue is not longer than there is room, and there is some. No operation changes that (`fits`);
- `World.Accepting`: whenever requests were handed over, the kernel took some, however few, or was interrupted. It holds
  of all of a history if it holds at its end (`Reaches.accepting`);
- `grants_of_accepting`: then room that is asked for is there, so a registration that watches anything gets a request
  (`not_isStarved_arm`), and handing requests over succeeds (`submit_of_accepting`).
-/

namespace Vigil

variable {K : Kernel}

/-! ## Accepted requests -/

/-- Whether the kernel turned requests down: it answered with an error that is no interruption, or took none of them. -/
def Exchange.refusesRequests : Exchange → Bool
  | ⟨.ringSubmit _, .error code, _⟩ => code != Code.interrupted
  | ⟨.ringSubmit requests, .ok n, _⟩ => n == 0 && !requests.isEmpty
  | _ => false

/-- The kernel never turned requests down. -/
def World.Accepting (w : World K) : Prop := ∀ x ∈ w.trace, x.refusesRequests = false

instance (w : World K) : Decidable w.Accepting := inferInstanceAs (Decidable (∀ x ∈ w.trace, _))

theorem Reaches.accepting {P : Call → Prop} {w v : World K} (h : Reaches P w v) (hv : v.Accepting) :
    w.Accepting := by
  obtain ⟨xs, hp, -⟩ := h.passage
  intro x hx
  apply hv
  rw [hp.trace]
  exact List.mem_append_left xs hx

/-- A queue that is no longer than there is room, on a ring that has some. -/
structure Ring.Fits (r : Ring) : Prop where
  capacity_pos : 0 < r.capacity
  length_le : r.pending.length ≤ r.capacity

namespace Ring

theorem Fits.taken {r : Ring} (h : r.Fits) (n : Nat) : (r.taken n).Fits := by
  refine ⟨h.capacity_pos, ?_⟩
  have := h.length_le
  simp [Ring.taken]
  omega

theorem Fits.push {r : Ring} (h : r.Fits) (hroom : r.hasRoom = true) (s : Submission) : (r.push s).Fits := by
  refine ⟨h.capacity_pos, ?_⟩
  have : r.pending.length < r.capacity := by simpa [hasRoom] using hroom
  simp [Ring.push]
  omega

/-- A full queue of which something was taken has room. -/
theorem Fits.hasRoom_taken {r : Ring} (h : r.Fits) {n : Nat} (hn : 0 < n) : (r.taken n).hasRoom = true := by
  have := h.capacity_pos
  have := h.length_le
  simp [hasRoom, Ring.taken]
  omega

end Ring

namespace RingPoller

/-! ## Handing requests over -/

/-- Requests that were handed over, again after each interruption, were taken at least in part. -/
theorem submit_of_accepting {p : RingPoller} {w : World K} (h : (p.submit w).2.Accepting) :
    ∃ n, (p.submit w).1 = (Code.success, { p with ring := p.ring.taken n }) ∧ (n = 0 → p.ring.pending = []) := by
  let ask : Sys K (Fallible Nat) := call (.ringSubmit p.ring.pending)
  -- the last answer stands in the history
  let inv (reply : Fallible Nat) (v : World K) : Prop := ∃ t, ⟨.ringSubmit p.ring.pending, reply, t⟩ ∈ v.trace
  have hask : ∀ v, inv (ask v).1 (ask v).2 := fun v => ⟨_, List.mem_append_right _ (List.mem_singleton.2 rfl)⟩
  have hless : ∀ v : World K, interrupted (ask v).1 = true → (ask v).2.patience < v.patience := fun v ha =>
    patience_call_lt (c := .ringSubmit p.ring.pending) ha
  obtain ⟨⟨t, hmem⟩, hi⟩ := @insist_induct K _ _ _ inv hless w (hask w) fun _ v _ _ => hask v
  simp only [submit, Sys.bind_apply] at h ⊢
  generalize insist interrupted (call (.ringSubmit p.ring.pending)) w = r at h hmem hi ⊢
  obtain ⟨reply, v⟩ := r
  cases reply with
  | error code =>
    have hv : v.Accepting := h
    have hcode : (code != Code.interrupted) = false := hv _ hmem
    have hne : (code == Code.interrupted) = false := hi
    rw [bne, hne] at hcode
    cases hcode
  | ok n =>
    have hv : v.Accepting := h
    have htook : (n == 0 && !p.ring.pending.isEmpty) = false := hv _ hmem
    refine ⟨n, rfl, ?_⟩
    rintro rfl
    simpa using htook

theorem accepting_of_submit {p : RingPoller} {w : World K} (h : (p.submit w).2.Accepting) : w.Accepting :=
  ((built_submit (P := fun _ => True) (fun _ => trivial) p).confined w).accepting h

/-! ## Room that is kept -/

/-- Queues that fit do so after each operation. -/
theorem fits : Invariant K fun p => p.ring.Fits where
  submit {p} w h := by
    simp only [submit, Sys.bind_apply]
    generalize insist interrupted (call (.ringSubmit p.ring.pending)) w = r
    obtain ⟨reply, v⟩ := r
    cases reply with
    | error code => exact h
    | ok n => exact h.taken n
  push s hroom h := h.push hroom s
  tables _ _ _ h := h
  completed _ h := ⟨h.capacity_pos, h.length_le⟩

theorem fits_created {capacity : Nat} (hc : 0 < capacity) (s : K.State) :
    (Moment.created capacity s).poller.ring.Fits := by
  have hring : (Moment.created capacity s).poller.ring = { capacity } := by
    unfold Moment.created init
    simp only [Sys.bind_apply]
    generalize call (.ringCreate depth 0) ({ kernel := s } : World K) = r
    obtain ⟨reply, v⟩ := r
    cases reply with
    | error code => rfl
    | ok offer =>
      dsimp only [Sys.ite_apply]
      cases offer <;> split <;> rfl
  rw [hring]
  exact ⟨hc, Nat.zero_le _⟩

/-! ## Room that is granted -/

/-- Room that is asked for is there, if the kernel accepted the requests that were handed over to make it. -/
theorem grants_of_accepting {p : RingPoller} {w : World K} (hf : p.ring.Fits) (h : (p.reserve w).2.Accepting) :
    p.grants w = true := by
  unfold grants
  simp only [reserve, Sys.ite_apply, Sys.pure_apply] at h ⊢
  split
  · rename_i hr
    exact hr
  · rename_i hr
    rw [if_neg hr] at h
    obtain ⟨n, hn, hempty⟩ := submit_of_accepting h
    have hpos : 0 < n := by
      rcases Nat.eq_zero_or_pos n with h₀ | h₀
      · -- an empty queue has room
        have := hf.capacity_pos
        simp [Ring.hasRoom, hempty h₀, this] at hr
      · exact h₀
    show (p.submit w).1.2.ring.hasRoom = true
    rw [hn]
    exact hf.hasRoom_taken hpos

/-- A registration that was armed is not starved: there was room for its request, and a token was left for it. -/
theorem not_isStarved_arm {p : RingPoller} {fd : Descriptor} {r : Registration} {w : World K} (hf : p.ring.Fits)
    (hs : ((p.arm fd r w).1.ledger (p.arm fd r w).2).Sound) (h : (p.arm fd r w).2.Accepting)
    (hb : ((p.arm fd r w).1.ledger (p.arm fd r w).2).armed ≤ Ledger.tokenCount) :
    (p.arm fd r w).1.isStarved fd = false := by
  by_cases hc : r.event.conditions = 0
  · rw [arm_apply, if_pos hc]
    simp [isStarved, store, Table.get?_insert, hc]
  · have hg : p.grants w = true := by
      rw [arm_apply, if_neg hc] at h
      exact grants_of_accepting hf h
    have hl : (p.arm fd r w).1.ledger (p.arm fd r w).2 = (p.ledger w).arm fd r := by
      rw [ledger_arm, if_pos ⟨hc, hg⟩]
    have hreg : (p.arm fd r w).1.registrations.get? fd = some { r with token := p.nextToken } := by
      show ((p.arm fd r w).1.ledger (p.arm fd r w).2).registrations.get? fd = _
      rw [hl]
      simp [Ledger.arm, Table.get?_insert, ledger]
    have hne : p.nextToken ≠ ignoreToken := by
      apply hs.ne_ignoreToken hb
      rw [hl, Ledger.armedTokens_arm]
      exact List.mem_append_right _ (List.mem_singleton.2 rfl)
    simp [isStarved, hreg, hne]

/-! ## Operations of an accepting kernel -/

theorem built_perform (p : RingPoller) (o : Operation) :
    Built (K := K) (·.isOfRingWait = true) (p.perform o) := by
  cases o with
  | add fd e mode => exact (built_add (fun _ h => h) p fd e mode).bind fun _ => .pure _
  | modify fd e mode => exact (built_modify (fun _ h => h) p fd e mode).bind fun _ => .pure _
  | remove fd => exact (built_remove (fun _ h => h) p fd).bind fun _ => .pure _
  | wake => exact (built_wake (fun _ h => h) p).bind fun _ => .pure _
  | wait b timeout => exact (built_wait (fun _ h => h) p b timeout).bind fun _ => .pure _

/-- A run makes only calls of a ring. -/
theorem reaches_run : ∀ (os : List Operation) (m : Moment K),
    Reaches (·.isOfRingWait = true) m.world (m.run os).world
  | [], _ => .refl
  | o :: os, m => ((built_perform m.poller o).confined m.world).trans (reaches_run os (m.after o))

end RingPoller

end Vigil
