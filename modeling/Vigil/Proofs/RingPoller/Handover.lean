import Vigil.Proofs.RingPoller.Ledger.Basic
import Vigil.Proofs.RingPoller.Run

/-!
# Handing requests over

Handing requests to the kernel only moves them from the queue to the history (`Handover`, `handover_submit`,
`handover_reserve`), so the ledger stays as it is. What arming and canceling do to the ledger then depends on one
thing alone, whether there was room for a request (`ledger_arm`, `ledger_cancel`).
-/

namespace Vigil.RingPoller

variable {K : Kernel}

/-! ## The ledger at a moment -/

/-- The ledger of a polled ring in a world. -/
def ledger (p : RingPoller) (w : World K) : Ledger where
  registrations := p.registrations
  owners := p.owners
  nextToken := p.nextToken
  prepared := Moment.prepared ⟨p, w⟩

/-- The ledger at a moment. -/
def Moment.ledger (m : Moment K) : Ledger := m.poller.ledger m.world

/-! ## Handovers -/

/-- From one moment to the other, the only thing that happened is that requests were handed over. -/
structure Handover (m m' : Moment K) : Prop where
  poller : m'.poller = { m.poller with ring := { m.poller.ring with pending := m'.poller.ring.pending } }
  prepared : m'.prepared = m.prepared
  arrived : m'.arrived = m.arrived
  advances : m'.advances = m.advances

namespace Handover

theorem refl (m : Moment K) : Handover m m := ⟨rfl, rfl, rfl, rfl⟩

theorem ledger {m m' : Moment K} (h : Handover m m') : m'.ledger = m.ledger := by
  have hp : m'.prepared = m.prepared := h.prepared
  unfold Moment.ledger RingPoller.ledger
  congr 1
  · rw [h.poller]
  · rw [h.poller]
  · rw [h.poller]

theorem completed {m m' : Moment K} (h : Handover m m') : m'.poller.ring.completed = m.poller.ring.completed := by
  rw [h.poller]

end Handover

/-- The requests that an answer to their submission says were taken. -/
def takenBy (ss : List Submission) : Fallible Nat → List Submission
  | .ok n => ss.take n
  | .error _ => []

/-- The history of one world continues that of another with what was taken of some requests. -/
structure Submitted (ss : List Submission) (w : World K) (reply : Fallible Nat) (v : World K) : Prop where
  taken : v.trace.flatMap Exchange.taken = w.trace.flatMap Exchange.taken ++ takenBy ss reply
  arrived : v.trace.flatMap Exchange.arrived = w.trace.flatMap Exchange.arrived
  advances : v.trace.flatMap Exchange.advance = w.trace.flatMap Exchange.advance

theorem submitted_call (ss : List Submission) (w : World K) :
    Submitted ss w (call (.ringSubmit ss) w).1 (call (.ringSubmit ss) w).2 := by
  constructor
  all_goals
    simp only [call, List.flatMap_append, List.flatMap_singleton]
    cases (K.answer w.kernel (.ringSubmit ss)).1 <;>
      simp [Exchange.taken, Exchange.arrived, Exchange.advance, takenBy]

/-- Submitting again after each interruption adds what the last answer took, and nothing else, to the history. -/
theorem submitted_insist (ss : List Submission) (w : World K) :
    let r := insist interrupted (call (.ringSubmit ss)) w
    Submitted ss w r.1 r.2 := by
  have hless : ∀ v : World K, interrupted (call (.ringSubmit ss) v).1 = true →
      (call (.ringSubmit ss) v).2.patience < v.patience := fun v ha => K.patience_lt _ _ ha
  have hrepeat : ∀ (reply : Fallible Nat) (v : World K), Submitted ss w reply v → interrupted reply = true →
      Submitted ss w (call (.ringSubmit ss) v).1 (call (.ringSubmit ss) v).2 := by
    intro reply v hi ha
    have hc := submitted_call ss v
    cases reply with
    | error code =>
      -- an interrupted submission took nothing
      have ht : v.trace.flatMap Exchange.taken = w.trace.flatMap Exchange.taken := by
        rw [hi.taken, takenBy, List.append_nil]
      exact ⟨by rw [hc.taken, ht], by rw [hc.arrived, hi.arrived], by rw [hc.advances, hi.advances]⟩
    | ok n => cases ha
  exact (@insist_induct K _ _ _ (Submitted ss w) hless w (submitted_call ss w) hrepeat).1

theorem handover_submit (p : RingPoller) (w : World K) :
    Handover ⟨p, w⟩ ⟨(p.submit w).1.2, (p.submit w).2⟩ := by
  obtain ⟨h₁, h₂, h₃⟩ := submitted_insist p.ring.pending w
  simp only [submit, Sys.bind_apply]
  generalize hr : insist interrupted (call (.ringSubmit p.ring.pending)) w = r at h₁ h₂ h₃
  obtain ⟨reply, v⟩ := r
  cases reply with
  | error code =>
    rw [takenBy, List.append_nil] at h₁
    exact ⟨rfl, congrArg (· ++ p.ring.pending) h₁, h₂, h₃⟩
  | ok n =>
    refine ⟨rfl, ?_, h₂, h₃⟩
    show v.trace.flatMap Exchange.taken ++ p.ring.pending.drop n = _
    rw [h₁, takenBy, List.append_assoc, List.take_append_drop]
    rfl

theorem handover_reserve (p : RingPoller) (w : World K) : Handover ⟨p, w⟩ ⟨(p.reserve w).1, (p.reserve w).2⟩ := by
  simp only [reserve, Sys.ite_apply, Sys.pure_apply]
  split
  · exact .refl _
  · exact handover_submit p w

theorem ledger_submit (p : RingPoller) (w : World K) : (p.submit w).1.2.ledger (p.submit w).2 = p.ledger w :=
  (handover_submit p w).ledger

theorem ledger_reserve (p : RingPoller) (w : World K) : (p.reserve w).1.ledger (p.reserve w).2 = p.ledger w :=
  (handover_reserve p w).ledger

/-! ## Arming and canceling -/

theorem ledger_push (p : RingPoller) (w : World K) (s : Submission) :
    (p.push s).ledger w = { p.ledger w with prepared := (p.ledger w).prepared ++ [s] } := by
  simp [ledger, push, Ring.push, Moment.prepared]

theorem ledger_storeArmed (p : RingPoller) (w : World K) (fd : Descriptor) (r : Registration) :
    (p.storeArmed fd r).ledger w = (p.ledger w).arm fd r := by
  simp [ledger, storeArmed, push, Ring.push, Moment.prepared, Ledger.arm]

theorem arm_apply (p : RingPoller) (fd : Descriptor) (r : Registration) (w : World K) :
    p.arm fd r w =
      if r.event.conditions = 0 then (p.store fd r, w)
      else
        (if p.grants w then (p.reserve w).1.storeArmed fd r else (p.reserve w).1.store fd r, (p.reserve w).2) := by
  simp only [arm, Sys.ite_apply, Sys.bind_apply, Sys.pure_apply]
  rfl

/-- A registration gets a request if it watches anything and there is room. -/
theorem ledger_arm (p : RingPoller) (fd : Descriptor) (r : Registration) (w : World K) :
    (p.arm fd r w).1.ledger (p.arm fd r w).2 =
      if r.event.conditions ≠ 0 ∧ p.grants w = true then (p.ledger w).arm fd r else (p.ledger w).rest fd r := by
  rw [arm_apply]
  by_cases hc : r.event.conditions = 0
  · rw [if_pos hc, if_neg fun h => h.1 hc]
    rfl
  · rw [if_neg hc]
    by_cases hg : p.grants w = true
    · rw [if_pos hg, if_pos (And.intro hc hg), ← ledger_reserve p w]
      exact ledger_storeArmed _ _ _ _
    · rw [if_neg hg, if_neg fun h => hg (And.right h), ← ledger_reserve p w]
      rfl

theorem cancel_apply (p : RingPoller) (r : Registration) (w : World K) :
    p.cancel r w =
      if r.token = ignoreToken then (p, w)
      else
        let q : RingPoller := { p with owners := p.owners.erase r.token }
        (if q.grants w then (q.reserve w).1.push (.pollRemove r.token ignoreToken) else (q.reserve w).1,
          (q.reserve w).2) := by
  simp only [cancel, Sys.ite_apply, Sys.bind_apply, Sys.pure_apply]
  rfl

/-- The kernel is asked to cancel a request if there is room to ask. -/
def cancelFate (p : RingPoller) (t : Token) (w : World K) : Fate :=
  if ({ p with owners := p.owners.erase t } : RingPoller).grants w then .canceled else .abandoned

theorem cancelFate_ne_finished (p : RingPoller) (t : Token) (w : World K) : p.cancelFate t w ≠ .finished := by
  unfold cancelFate
  split <;> exact fun h => by cases h

theorem grants_of_cancelFate {p : RingPoller} {t : Token} {w : World K} (h : p.cancelFate t w = .abandoned) :
    ({ p with owners := p.owners.erase t } : RingPoller).grants w = false := by
  unfold cancelFate at h
  split at h
  · cases h
  · rename_i hg
    exact Bool.eq_false_iff.2 hg

/-- A registration whose request was canceled, once it is taken off, is retired. -/
theorem ledger_cancel (p : RingPoller) (fd : Descriptor) (r : Registration) (w : World K) :
    ((p.cancel r w).1.ledger (p.cancel r w).2).forget fd =
      if r.token = ignoreToken then (p.ledger w).forget fd
      else (p.ledger w).retire fd r.token (p.cancelFate r.token w) := by
  rw [cancel_apply]
  split
  · rfl
  · have hq := ledger_reserve { p with owners := p.owners.erase r.token } w
    unfold cancelFate
    dsimp only
    split
    · rw [ledger_push, hq]
      rfl
    · rw [hq]
      simp [ledger, Ledger.forget, Ledger.retire, Fate.requests, Moment.prepared]

/-! ## The tables -/

theorem registrations_submit (p : RingPoller) (w : World K) : (p.submit w).1.2.registrations = p.registrations :=
  congrArg Ledger.registrations (ledger_submit p w)

theorem registrations_reserve (p : RingPoller) (w : World K) : (p.reserve w).1.registrations = p.registrations :=
  congrArg Ledger.registrations (ledger_reserve p w)

theorem owners_reserve (p : RingPoller) (w : World K) : (p.reserve w).1.owners = p.owners :=
  congrArg Ledger.owners (ledger_reserve p w)

theorem nextToken_reserve (p : RingPoller) (w : World K) : (p.reserve w).1.nextToken = p.nextToken :=
  congrArg Ledger.nextToken (ledger_reserve p w)

theorem registrations_arm (p : RingPoller) (fd : Descriptor) (r : Registration) (w : World K) :
    (p.arm fd r w).1.registrations = p.registrations.insert fd
      { r with token := if r.event.conditions ≠ 0 ∧ p.grants w = true then p.nextToken else ignoreToken } := by
  have h := congrArg Ledger.registrations (ledger_arm p fd r w)
  refine h.trans ?_
  split <;> rfl

theorem nextToken_cancel (p : RingPoller) (r : Registration) (w : World K) :
    (p.cancel r w).1.nextToken = p.nextToken := by
  rw [cancel_apply]
  split
  · rfl
  · have hq := nextToken_reserve { p with owners := p.owners.erase r.token } w
    dsimp only
    split <;> exact hq

theorem registrations_cancel (p : RingPoller) (r : Registration) (w : World K) :
    (p.cancel r w).1.registrations = p.registrations := by
  rw [cancel_apply]
  split
  · rfl
  · have hq := registrations_reserve { p with owners := p.owners.erase r.token } w
    dsimp only
    split <;> exact hq

end Vigil.RingPoller
