import Vigil.Proofs.RingPoller.Taking

/-!
# Waits as trails of sightings

Between two completions that are looked at, a wait only asks the kernel for more of them and gives their room back
(`Quiet`). So a wait is a `Trail` of its sightings, from each of which it goes on to the next (`trail_wait`).

A trail can be taken up at any of its sightings (`Trail.split`), and what is kept from each of them to the next is kept
to its end (`Trail.keeps`). What the parts of operations keep is (`Kept.trail`). If the kernel takes what it is
handed, then nothing is left queued where nothing was queued (`Trail.pending_eq_nil`), or where some registration was
armed again on the way (`Trail.pending_of_rearm`).
-/

namespace Vigil.RingPoller

variable {K : Kernel}

/-! ## Between sightings -/

/-- From one moment to the other, completions may have come and gone, and no request was handed over. -/
structure Quiet (m m' : Moment K) : Prop where
  poller : m'.poller = { m.poller with ring := { m.poller.ring with completed := m'.poller.ring.completed } }
  taken : m'.world.trace.flatMap Exchange.taken = m.world.trace.flatMap Exchange.taken
  reaches : Reaches (·.isOfRingWait = true) m.world m'.world

namespace Quiet

theorem refl (m : Moment K) : Quiet m m where
  poller := rfl
  taken := rfl
  reaches := .refl

theorem trans {m m₁ m₂ : Moment K} (h : Quiet m m₁) (h' : Quiet m₁ m₂) : Quiet m m₂ where
  poller := by
    rw [h'.poller, h.poller]
  taken := h'.taken.trans h.taken
  reaches := h.reaches.trans h'.reaches

theorem registrations {m m' : Moment K} (h : Quiet m m') : m'.poller.registrations = m.poller.registrations := by
  rw [h.poller]

theorem pending {m m' : Moment K} (h : Quiet m m') : m'.poller.ring.pending = m.poller.ring.pending := by
  rw [h.poller]

theorem noted (p : RingPoller) (w : World K) (message : Message) : Quiet ⟨p, w⟩ ⟨p, w.noted message⟩ where
  poller := rfl
  taken := rfl
  reaches := Reaches.refl.noted (.backend .ring message)

/-- A call of a wait that hands no requests over, with any change to the queue of completions. -/
theorem called (p : RingPoller) (w : World K) {c : Call} (hc : c.isOfRingWait = true)
    (htaken : ∀ reply time, Exchange.taken ⟨c, reply, time⟩ = []) (completed : List Completion) :
    Quiet ⟨p, w⟩ ⟨{ p with ring := { p.ring with completed } }, (call c w).2⟩ where
  poller := rfl
  taken := by
    simp only [call, List.flatMap_append, List.flatMap_singleton]
    rw [htaken, List.append_nil]
  reaches := Reaches.refl.called hc

end Quiet

/-! ## Trails -/

/-- From one moment to the other, some completions are looked at, one after the other. -/
inductive Trail : Moment K → List (Sighting K) → Moment K → Prop
  | rest {m m' : Moment K} (h : Quiet m m') : Trail m [] m'
  | see {m m' : Moment K} {x : Sighting K} {ys : List (Sighting K)} (h : Quiet m x.toMoment) (ht : Trail x.next ys m') :
      Trail m (x :: ys) m'

theorem Quiet.trail {m m₁ m₂ : Moment K} {xs : List (Sighting K)} (h : Quiet m m₁) (ht : Trail m₁ xs m₂) :
    Trail m xs m₂ := by
  cases ht with
  | rest h' => exact .rest (h.trans h')
  | see h' ht => exact .see (h.trans h') ht

theorem reaches_next (x : Sighting K) : Reaches (·.isOfRingWait = true) x.world x.next.world :=
  (built_renew (fun _ => rfl) x.consumed.poller (x.poller.consume x.completion).rearm).confined x.world

namespace Trail

variable {m m₁ m₂ m' : Moment K} {xs ys : List (Sighting K)}

theorem trans (h : Trail m xs m₁) (h' : Trail m₁ ys m₂) : Trail m (xs ++ ys) m₂ := by
  induction h with
  | rest hq => exact hq.trail h'
  | see hq _ ih => exact .see hq (ih h')

/-- A trail is one up to each of its sightings, and one from what that leads to. -/
theorem split {x : Sighting K} : ∀ {xs : List (Sighting K)} {m : Moment K}, Trail m (xs ++ x :: ys) m' →
    Trail m xs x.toMoment ∧ Trail x.next ys m'
  | [], _, .see hq ht => ⟨.rest hq, ht⟩
  | _ :: _, _, .see hq ht => by
    obtain ⟨hbefore, hafter⟩ := ht.split
    exact ⟨.see hq hbefore, hafter⟩

theorem reaches (h : Trail m xs m') : Reaches (·.isOfRingWait = true) m.world m'.world := by
  induction h with
  | rest hq => exact hq.reaches
  | @see m m' x ys hq _ ih => exact (hq.reaches.trans (reaches_next x)).trans ih

/-- What is kept by what happens between sightings and from each sighting to the next is kept by a trail. -/
theorem keeps {P : Moment K → Prop} (hquiet : ∀ m m', Quiet m m' → P m → P m') (h : Trail m xs m')
    (hnext : ∀ x ∈ xs, P x.toMoment → P x.next) (hm : P m) : P m' := by
  induction h with
  | rest hq => exact hquiet _ _ hq hm
  | @see m m' x ys hq _ ih =>
    refine ih (fun y hy => hnext y (List.mem_cons_of_mem _ hy)) ?_
    exact hnext x List.mem_cons_self (hquiet _ _ hq hm)

end Trail

theorem Kept.trail {P : RingPoller → Prop} (h : Kept K P) {m m' : Moment K} {xs : List (Sighting K)}
    (ht : Trail m xs m') (hm : P m.poller) : P m'.poller := by
  have hquiet : ∀ m m' : Moment K, Quiet m m' → P m.poller → P m'.poller := by
    intro m m' hq hp
    rw [hq.poller]
    exact h.completed _ hp
  exact ht.keeps (P := fun m => P m.poller) hquiet (fun x _ hx => h.next hx) hm

/-! ## Waits -/

theorem trail_reap : ∀ (cs : List Completion) (room : Nat) (m : Moment K),
    let r := reap cs room m.poller m.world
    Trail m (walk cs room m) ⟨r.1.poller, r.2⟩
  | [], _, _ => .rest (.refl _)
  | _ :: _, 0, _ => .rest (.refl _)
  | c :: cs, room + 1, m => by
    rw [reap_cons]
    exact .see (x := ⟨m, c⟩) (.refl _) (trail_reap cs _ _)

theorem stretch_trail : Stretch fun (m : Moment K) ws m' => Trail m ws.flatten m' where
  refl m := .rest (.refl m)
  trans h h' := by
    rw [List.flatten_append]
    exact h.trans h'
  noted p w message := .rest (.noted p w message)
  asked p w queued t := .rest (.called p w rfl (fun _ _ => rfl) _)
  harvest p w := by
    rw [List.flatten_singleton]
    let r := RingPoller.reap p.ring.completed Buffer.capacity p w
    have hreap : Trail ⟨p, w⟩ (walk p.ring.completed Buffer.capacity ⟨p, w⟩) ⟨r.1.poller, r.2⟩ :=
      trail_reap p.ring.completed Buffer.capacity ⟨p, w⟩
    have hadvance : Quiet ⟨r.1.poller, r.2⟩ ⟨(p.harvest w).1.1, (p.harvest w).2⟩ :=
      .called r.1.poller r.2 (c := .ringAdvance r.1.seen) rfl (fun _ _ => rfl) _
    have h := hreap.trans (.rest hadvance)
    rwa [List.append_nil] at h

/-- A wait is a trail of its sightings. -/
theorem trail_wait (m : Moment K) (b : Buffer) (timeout : Timeout) :
    Trail m (m.walksOf (.wait b timeout)).flatten (m.after (.wait b timeout)) :=
  stretch_trail.wait m.poller b timeout m.world

/-! ## What is queued -/

/-- A registration is armed again with all that was queued handed over, if the kernel takes what it is handed. -/
theorem pending_next_of_rearm {x : Sighting K} (h : Taking x.world x.next.world) {a : Descriptor × Registration}
    (ha : (x.poller.consume x.completion).rearm = some a) : x.next.poller.ring.pending = [] := by
  let q := x.consumed.poller.arm a.1 a.2 x.world
  have harm : Reaches (fun _ => True) x.world q.2 :=
    (built_arm (fun _ => trivial) x.consumed.poller a.1 a.2).confined x.world
  have hnext : x.next = ⟨(q.1.submit q.2).1.2, (q.1.submit q.2).2⟩ := by
    unfold Sighting.next
    rw [ha]
    rfl
  rw [hnext] at h ⊢
  have hsubmit := submit_of_taking (harm.taking (reaches_submit q.1 q.2) h).2
  show (q.1.submit q.2).1.2.ring.pending = []
  rw [hsubmit]

/-- What a completion leads to is no longer queued, if the kernel takes what it is handed. -/
theorem pending_next {x : Sighting K} (h : Taking x.world x.next.world) (hx : x.poller.ring.pending = []) :
    x.next.poller.ring.pending = [] := by
  cases hr : (x.poller.consume x.completion).rearm with
  | none =>
    rw [x.next_eq_consumed hr]
    show (x.poller.consume x.completion).poller.ring.pending = []
    rw [ring_consume, hx]
  | some a => exact pending_next_of_rearm h hr

namespace Trail

variable {m m' : Moment K}

/-- The kernel takes what a sighting hands over, and what comes after it does. -/
theorem taking {earlier later : List (Sighting K)} {x : Sighting K} (h : Trail m (earlier ++ x :: later) m')
    (ht : Taking m.world m'.world) : Taking x.world x.next.world ∧ Taking x.next.world m'.world := by
  obtain ⟨hbefore, hafter⟩ := h.split
  obtain ⟨-, hx⟩ := hbefore.reaches.taking ((reaches_next x).trans hafter.reaches) ht
  exact (reaches_next x).taking hafter.reaches hx

theorem pending_eq_nil {xs : List (Sighting K)} (h : Trail m xs m') (ht : Taking m.world m'.world)
    (hm : m.poller.ring.pending = []) : m'.poller.ring.pending = [] := by
  induction h with
  | rest hq => rw [hq.pending, hm]
  | @see m m' x ys hq hs ih =>
    have hsee : Trail m ([] ++ x :: ys) m' := .see hq hs
    obtain ⟨hnext, hrest⟩ := hsee.taking ht
    exact ih hrest (pending_next hnext (hq.pending.trans hm))

/-- Where some registration is armed again, nothing is left queued at the end, whatever was queued before. -/
theorem pending_of_rearm {earlier later : List (Sighting K)} {x : Sighting K} (h : Trail m (earlier ++ x :: later) m')
    (ht : Taking m.world m'.world) {a : Descriptor × Registration}
    (ha : (x.poller.consume x.completion).rearm = some a) : m'.poller.ring.pending = [] := by
  obtain ⟨hnext, hrest⟩ := h.taking ht
  exact h.split.2.pending_eq_nil hrest (pending_next_of_rearm hnext ha)

end Trail

end Vigil.RingPoller
