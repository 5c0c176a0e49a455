import Vigil.Proofs.RingPoller.Account

/-!
# What operations keep

Operations of a polled ring hand requests over, arm and cancel registrations, and wait for completions and consume
them. What all of these keep is kept by every operation (`Kept.after`). A property that does not look at the tables is
kept by arming and canceling if it is kept by handing over and queueing (`Invariant.kept`).
-/

namespace Vigil.RingPoller

variable {K : Kernel}

/-! ## Properties that operations keep -/

/-- Making room hands requests over, or does nothing. -/
theorem kept_reserve {P : RingPoller → Prop} {p : RingPoller} {w : World K} (hsubmit : P p → P (p.submit w).1.2)
    (hp : P p) : P (p.reserve w).1 := by
  simp only [reserve, Sys.ite_apply, Sys.pure_apply]
  split
  · exact hp
  · exact hsubmit hp

/-- A property that every part of an operation keeps. -/
structure Kept (K : Kernel) (P : RingPoller → Prop) : Prop where
  submit : ∀ {p : RingPoller} (w : World K), P p → P (p.submit w).1.2
  arm : ∀ {p : RingPoller} (fd : Descriptor) (r : Registration) (w : World K), P p → P (p.arm fd r w).1
  cancel : ∀ {p : RingPoller} (r : Registration) (w : World K), P p → P (p.cancel r w).1
  erase : ∀ {p : RingPoller} (fd : Descriptor), P p → P { p with registrations := p.registrations.erase fd }
  signal : ∀ {p : RingPoller}, p.ring.hasRoom = true → P p → P (p.push (.nop wakeToken))
  consume : ∀ {p : RingPoller} (c : Completion), P p → P (p.consume c).poller
  completed : ∀ {p : RingPoller} (completed : List Completion), P p → P { p with ring := { p.ring with completed } }

namespace Kept

variable {P : RingPoller → Prop}

theorem next (h : Kept K P) {x : Sighting K} (hx : P x.poller) : P x.next.poller := by
  have hc : P x.consumed.poller := h.consume x.completion hx
  unfold Sighting.next
  cases (x.poller.consume x.completion).rearm with
  | none => exact hc
  | some a => exact h.submit _ (h.arm a.1 a.2 x.world hc)

theorem reap (h : Kept K P) : ∀ (cs : List Completion) (room : Nat) (m : Moment K), P m.poller →
    P (RingPoller.reap cs room m.poller m.world).1.poller
  | [], _, _, hm => hm
  | _ :: _, 0, _, hm => hm
  | c :: cs, room + 1, m, hm => by
    rw [reap_cons]
    exact h.reap cs _ _ (h.next (x := ⟨m, c⟩) hm)

theorem stretch (h : Kept K P) : Stretch fun (m : Moment K) _ m' => P m.poller → P m'.poller where
  refl _ hm := hm
  trans h₁ h₂ hm := h₂ (h₁ hm)
  noted _ _ _ hm := hm
  asked _ _ _ _ hm := h.completed _ hm
  harvest p w hm := h.completed _ (h.reap p.ring.completed Buffer.capacity ⟨p, w⟩ hm)

/-- What the parts of operations keep is kept by every operation. -/
theorem after (h : Kept K P) {m : Moment K} (hm : P m.poller) (o : Operation) : P (m.after o).poller := by
  cases o with
  | add fd e mode =>
    show P (m.poller.add fd e mode m.world).1.2
    rw [add_apply]
    dsimp only
    split
    · exact hm
    · split
      · exact hm
      · have ha := h.arm fd ⟨e, mode, ignoreToken⟩ (m.world.noted (.register .add none fd e mode)) hm
        split
        · exact h.erase fd ha
        · exact h.submit _ ha
  | modify fd e mode =>
    show P (m.poller.modify fd e mode m.world).1.2
    rw [modify_apply]
    dsimp only
    split
    · exact hm
    · cases m.poller.registrations.get? fd with
      | none => exact hm
      | some old => exact h.submit _ (h.arm fd _ _ (h.cancel old _ hm))
  | remove fd =>
    show P (m.poller.remove fd m.world).1.2
    rw [remove_apply]
    dsimp only
    cases m.poller.registrations.get? fd with
    | none => exact hm
    | some old => exact h.submit _ (h.erase fd (h.cancel old _ hm))
  | wake =>
    have hsignal : ∀ v : World K, P (m.poller.signal v).1.2 := by
      intro v
      have hr := kept_reserve (h.submit v) hm
      rw [signal_apply]
      dsimp only
      split
      · rename_i hg
        exact h.submit _ (h.signal hg hr)
      · exact hr
    show P (m.poller.wake m.world).1
    rw [wake_apply]
    dsimp only
    split
    · split <;> exact hsignal _
    · exact hm
  | wait b timeout => exact h.stretch.wait m.poller b timeout m.world hm

theorem run (h : Kept K P) : ∀ (os : List Operation) {m : Moment K}, P m.poller → P (m.run os).poller
  | [], _, hm => hm
  | o :: os, _, hm => h.run os (h.after hm o)

end Kept

/-! ## Properties that do not look at the tables -/

/-- A property that handing over and queueing keep, whatever becomes of the tables. -/
structure Invariant (K : Kernel) (P : RingPoller → Prop) : Prop where
  submit : ∀ {p : RingPoller} (w : World K), P p → P (p.submit w).1.2
  push : ∀ {p : RingPoller} (s : Submission), p.ring.hasRoom = true → P p → P (p.push s)
  tables : ∀ {p : RingPoller} (registrations : Table Descriptor Registration) (owners : Table Token Descriptor)
    (nextToken : Token), P p → P { p with registrations, owners, nextToken }
  completed : ∀ {p : RingPoller} (completed : List Completion), P p → P { p with ring := { p.ring with completed } }

namespace Invariant

variable {P : RingPoller → Prop} {p : RingPoller}

theorem arm (h : Invariant K P) (hp : P p) (fd : Descriptor) (r : Registration) (w : World K) : P (p.arm fd r w).1 := by
  rw [arm_apply]
  split
  · exact h.tables _ _ _ hp
  · have hr := kept_reserve (h.submit w) hp
    dsimp only
    split
    · rename_i hg
      exact h.tables _ _ _ (h.push _ hg hr)
    · exact h.tables _ _ _ hr

theorem cancel (h : Invariant K P) (hp : P p) (r : Registration) (w : World K) : P (p.cancel r w).1 := by
  rw [cancel_apply]
  split
  · exact hp
  · have hq := kept_reserve (h.submit w) (h.tables p.registrations (p.owners.erase r.token) p.nextToken hp)
    dsimp only
    split
    · rename_i hg
      exact h.push _ hg hq
    · exact hq

theorem consume (h : Invariant K P) (c : Completion) (hp : P p) : P (p.consume c).poller := by
  rcases consume_cases p c with ⟨hc, -⟩ | ⟨fd, r, -, -, -, -, hc, -⟩ <;> rw [hc]
  · exact hp
  · exact h.tables _ _ _ (h.tables p.registrations (p.owners.erase c.token) p.nextToken hp)

/-- What does not look at the tables is kept. -/
theorem kept (h : Invariant K P) : Kept K P where
  submit w hp := h.submit w hp
  arm fd r w hp := h.arm hp fd r w
  cancel r w hp := h.cancel hp r w
  erase _ hp := h.tables _ _ _ hp
  signal hroom hp := h.push _ hroom hp
  consume c hp := h.consume c hp
  completed cs hp := h.completed cs hp

end Invariant

end Vigil.RingPoller
