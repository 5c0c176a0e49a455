import Vigil.Proofs.RingPoller.Account

/-!
# What descriptors are registered with

The event of a registration (`watched`) is the one of the latest operation that replaced it (`Moment.latest`,
`watched_run`). Waits leave it alone: what lasts from one sighting to the next lasts through a wait (`Lasting.stretch`),
and arming a registration again does not change its event (`watched_next`).
-/

namespace Vigil.RingPoller

variable {K : Kernel}

/-! ## What lasts through waits -/

/-- A property of the tables that lasts from one sighting to the next. -/
structure Lasting (K : Kernel) (P : RingPoller → Prop) : Prop where
  ring : ∀ (p : RingPoller) (ring : Ring), P p → P { p with ring }
  next : ∀ x : Sighting K, P x.poller → P x.next.poller

namespace Lasting

variable {P : RingPoller → Prop}

theorem walk (h : Lasting K P) : ∀ (cs : List Completion) (room : Nat) (m : Moment K), P m.poller →
    (∀ x ∈ walk cs room m, P x.poller) ∧ P (reap cs room m.poller m.world).1.poller
  | [], _, _, hm => ⟨fun _ hx => absurd hx List.not_mem_nil, hm⟩
  | _ :: _, 0, _, hm => ⟨fun _ hx => absurd hx List.not_mem_nil, hm⟩
  | c :: cs, room + 1, m, hm => by
    rw [reap_cons]
    obtain ⟨hwalk, hreap⟩ := h.walk cs _ _ (h.next ⟨m, c⟩ hm)
    refine ⟨fun x hx => ?_, hreap⟩
    rcases List.mem_cons.1 hx with rfl | hx
    · exact hm
    · exact hwalk x hx

theorem harvest (h : Lasting K P) {p : RingPoller} (hp : P p) (w : World K) :
    (∀ x ∈ RingPoller.walk p.ring.completed Buffer.capacity ⟨p, w⟩, P x.poller) ∧ P (p.harvest w).1.1 := by
  obtain ⟨hwalk, hreap⟩ := h.walk p.ring.completed Buffer.capacity ⟨p, w⟩ hp
  exact ⟨hwalk, h.ring _ _ hreap⟩

/-- What lasts from one sighting to the next holds at all sightings of a wait, and at its end. -/
theorem stretch (h : Lasting K P) : Stretch fun (m : Moment K) ws m' =>
    P m.poller → (∀ x ∈ ws.flatten, P x.poller) ∧ P m'.poller where
  refl _ hm := ⟨fun _ hx => absurd hx List.not_mem_nil, hm⟩
  trans hvs hws hm := by
    obtain ⟨hfirst, hm₁⟩ := hvs hm
    obtain ⟨hrest, hm₂⟩ := hws hm₁
    refine ⟨fun x hx => ?_, hm₂⟩
    rw [List.flatten_append] at hx
    rcases List.mem_append.1 hx with hx | hx
    · exact hfirst x hx
    · exact hrest x hx
  noted _ _ _ hm := ⟨fun _ hx => absurd hx List.not_mem_nil, hm⟩
  asked _ _ _ _ hm := ⟨fun _ hx => absurd hx List.not_mem_nil, h.ring _ _ hm⟩
  harvest p w hm := by
    rw [List.flatten_singleton]
    exact h.harvest hm w

end Lasting

/-! ## Events of registrations -/

/-- The event that a descriptor is registered with. -/
def watched (p : RingPoller) (fd : Descriptor) : Option Event := (p.registrations.get? fd).map Registration.event

theorem watched_congr {p q : RingPoller} (h : q.registrations = p.registrations) : q.watched = p.watched := by
  unfold watched
  rw [h]

theorem Handover.watched {m m' : Moment K} (h : Handover m m') : m'.poller.watched = m.poller.watched :=
  watched_congr (by rw [h.poller])

theorem watched_submit (p : RingPoller) (w : World K) : (p.submit w).1.2.watched = p.watched :=
  (handover_submit p w).watched

theorem watched_reserve (p : RingPoller) (w : World K) : (p.reserve w).1.watched = p.watched :=
  (handover_reserve p w).watched

theorem watched_cancel (p : RingPoller) (r : Registration) (w : World K) : (p.cancel r w).1.watched = p.watched := by
  rw [cancel_apply]
  split
  · rfl
  · have hq := watched_reserve { p with owners := p.owners.erase r.token } w
    dsimp only
    split <;> exact hq

theorem watched_store (p : RingPoller) (fd : Descriptor) (r : Registration) (fd' : Descriptor) :
    (p.store fd r).watched fd' = if fd' = fd then some r.event else p.watched fd' := by
  simp only [watched, store, Table.get?_insert]
  split <;> rfl

theorem watched_storeArmed (p : RingPoller) (fd : Descriptor) (r : Registration) (fd' : Descriptor) :
    (p.storeArmed fd r).watched fd' = if fd' = fd then some r.event else p.watched fd' := by
  simp only [watched, storeArmed, push, Table.get?_insert]
  split <;> rfl

theorem watched_arm (p : RingPoller) (fd : Descriptor) (r : Registration) (w : World K) (fd' : Descriptor) :
    (p.arm fd r w).1.watched fd' = if fd' = fd then some r.event else p.watched fd' := by
  rw [arm_apply]
  split
  · exact watched_store p fd r fd'
  · rw [← watched_reserve p w]
    dsimp only
    split
    · exact watched_storeArmed _ fd r fd'
    · exact watched_store _ fd r fd'

theorem watched_erase (p : RingPoller) (fd fd' : Descriptor) :
    ({ p with registrations := p.registrations.erase fd } : RingPoller).watched fd' =
      if fd' = fd then none else p.watched fd' := by
  simp only [watched, Table.get?_erase]
  split <;> rfl

/-- A registration that is stored again with its own event is the same to look at. -/
theorem watched_restored {p : RingPoller} {fd : Descriptor} {r : Registration} {q : RingPoller}
    (hr : p.watched fd = some r.event)
    (hq : ∀ fd', q.watched fd' = if fd' = fd then some r.event else p.watched fd') : q.watched = p.watched := by
  funext fd'
  rw [hq]
  split
  · rename_i he
    rw [he, hr]
  · rfl

theorem watched_next (x : Sighting K) : x.next.poller.watched = x.poller.watched := by
  rcases consume_cases x.poller x.completion with ⟨hp, hn⟩ | ⟨fd, r, -, -, hr, -, hp, hn⟩
  · rw [x.next_eq_consumed hn]
    exact congrArg watched hp
  · have hw : x.poller.watched fd = some r.event := congrArg (Option.map Registration.event) hr
    have hconsumed : x.consumed.poller.watched = x.poller.watched := by
      unfold Sighting.consumed
      rw [hp]
      exact watched_restored hw (watched_store _ fd r)
    rcases hn with hn | hn
    · rw [x.next_eq_consumed hn]
      exact hconsumed
    · have hnext : x.next.poller.watched = (x.consumed.poller.arm fd r x.world).1.watched := by
        unfold Sighting.next
        rw [hn]
        exact watched_submit _ _
      rw [hnext, ← hconsumed]
      exact watched_restored (hconsumed ▸ hw) (watched_arm _ fd r _)

theorem lasting_watched (fd : Descriptor) (e : Option Event) : Lasting K fun p => p.watched fd = e where
  ring _ _ h := h
  next x h := by
    rw [watched_next]
    exact h

/-! ## Operations that replace events -/

namespace Moment

/-- The event that an operation replaces that of a descriptor with, if it does: an addition where there is no
registration, or a change where there is one. -/
def replacement (m : Moment K) (fd : Descriptor) : Operation → Option Event
  | .add fd' e mode =>
    if fd' = fd ∧ mode ≠ .level ∧ (m.poller.registrations.get? fd).isSome = false then some e else none
  | .modify fd' e mode =>
    if fd' = fd ∧ mode ≠ .level ∧ (m.poller.registrations.get? fd).isSome = true then some e else none
  | _ => none

/-- The event that the latest operation of a run that replaced that of a descriptor replaced it with. -/
def latest (m : Moment K) (fd : Descriptor) : List Operation → Option Event
  | [] => none
  | o :: os => ((m.after o).latest fd os).or (m.replacement fd o)

end Moment

theorem watched_add (p : RingPoller) (w : World K) (fd' : Descriptor) (e : Event) (mode : Mode) {fd : Descriptor}
    {ev : Event} (h : (p.add fd' e mode w).1.2.watched fd = some ev) :
    (Moment.replacement ⟨p, w⟩ fd (.add fd' e mode)).or (p.watched fd) = some ev := by
  rw [add_apply] at h
  unfold Moment.replacement
  dsimp only at h ⊢
  by_cases hm : mode = .level
  · rw [if_pos hm] at h
    rw [if_neg fun hc => hc.2.1 hm]
    exact h
  · rw [if_neg hm] at h
    by_cases hr : (p.registrations.get? fd').isSome = true
    · rw [if_pos hr] at h
      rw [if_neg]
      · exact h
      · rintro ⟨rfl, -, hn⟩
        rw [hr] at hn
        cases hn
    · rw [if_neg hr] at h
      by_cases hfd : fd' = fd
      · subst hfd
        rw [if_pos ⟨rfl, hm, Bool.eq_false_iff.2 hr⟩]
        split at h
        · rw [watched_erase, if_pos rfl] at h
          cases h
        · rw [watched_submit, watched_arm, if_pos rfl] at h
          exact h
      · rw [if_neg fun hc => hfd hc.1]
        split at h
        · rw [watched_erase, if_neg (Ne.symm hfd), watched_arm, if_neg (Ne.symm hfd)] at h
          exact h
        · rw [watched_submit, watched_arm, if_neg (Ne.symm hfd)] at h
          exact h

theorem watched_modify (p : RingPoller) (w : World K) (fd' : Descriptor) (e : Event) (mode : Mode) (fd : Descriptor) :
    (p.modify fd' e mode w).1.2.watched fd =
      (Moment.replacement ⟨p, w⟩ fd (.modify fd' e mode)).or (p.watched fd) := by
  rw [modify_apply]
  unfold Moment.replacement
  dsimp only
  by_cases hm : mode = .level
  · rw [if_pos hm, if_neg fun hc => hc.2.1 hm]
    rfl
  · rw [if_neg hm]
    by_cases hfd : fd' = fd
    · subst hfd
      cases hr : p.registrations.get? fd' with
      | none =>
        rw [if_neg fun hc => by cases hc.2.2]
        rfl
      | some old =>
        rw [if_pos ⟨rfl, hm, rfl⟩]
        dsimp only
        rw [watched_submit, watched_arm, if_pos rfl]
        rfl
    · rw [if_neg fun hc => hfd hc.1]
      cases p.registrations.get? fd' with
      | none => rfl
      | some old =>
        dsimp only
        rw [watched_submit, watched_arm, if_neg (Ne.symm hfd), watched_cancel]
        rfl

theorem watched_remove (p : RingPoller) (w : World K) (fd fd' : Descriptor) :
    (p.remove fd w).1.2.watched fd' = if fd' = fd then none else p.watched fd' := by
  rw [remove_apply]
  dsimp only
  cases hr : p.registrations.get? fd with
  | none =>
    dsimp only
    split
    · rename_i he
      rw [he, watched, hr]
      rfl
    · rfl
  | some old =>
    dsimp only
    rw [watched_submit, watched_erase, watched_cancel]

theorem registrations_wake (p : RingPoller) (w : World K) : (p.wake w).1.registrations = p.registrations := by
  have hsignal : ∀ v : World K, (p.signal v).1.2.registrations = p.registrations := by
    intro v
    rw [signal_apply, ← registrations_reserve p v]
    dsimp only
    split
    · exact registrations_submit _ _
    · rfl
  rw [wake_apply]
  dsimp only
  split
  · split <;> exact hsignal _
  · rfl

theorem watched_wake (p : RingPoller) (w : World K) : (p.wake w).1.watched = p.watched :=
  watched_congr (registrations_wake p w)

/-- The event after an operation is the one that it put there, or the one that was there. -/
theorem watched_after (m : Moment K) (o : Operation) {fd : Descriptor} {e : Event}
    (h : (m.after o).poller.watched fd = some e) : (m.replacement fd o).or (m.poller.watched fd) = some e := by
  cases o with
  | add fd' e' mode => exact watched_add m.poller m.world fd' e' mode h
  | modify fd' e' mode => exact (watched_modify m.poller m.world fd' e' mode fd).symm.trans h
  | remove fd' =>
    have hw : (m.after (.remove fd')).poller.watched fd = _ := watched_remove m.poller m.world fd' fd
    rw [hw] at h
    split at h
    · cases h
    · exact h
  | wake =>
    have hw : (m.after .wake).poller.watched = m.poller.watched := watched_wake m.poller m.world
    rw [hw] at h
    exact h
  | wait b timeout =>
    have hw := ((lasting_watched fd (m.poller.watched fd)).stretch.wait m.poller b timeout m.world rfl).2
    exact hw.symm.trans h

/-- The event after a run is the latest one that was put there, or the one that was there. -/
theorem watched_run {fd : Descriptor} {e : Event} : ∀ (os : List Operation) (m : Moment K),
    (m.run os).poller.watched fd = some e → (m.latest fd os).or (m.poller.watched fd) = some e
  | [], _, h => h
  | o :: os, m, h => by
    have hrest := watched_run os (m.after o) h
    rw [Moment.latest, Option.or_assoc]
    cases hl : (m.after o).latest fd os with
    | some e' =>
      rw [hl] at hrest
      exact hrest
    | none =>
      rw [hl] at hrest
      exact watched_after m o hrest

end Vigil.RingPoller
