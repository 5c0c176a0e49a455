import Vigil.Proofs.RingPoller.Handover
import Vigil.Proofs.RingPoller.Ledger.Exact
import Vigil.Proofs.RingPoller.Stretch

/-!
# The account of a run

Every stretch of a run moves the ledger along a path (`Account`). Its deeds agree with what can be seen of the
stretch: a request that finished did so at a sighting of its last completion, and one was abandoned only at a moment
when there was no room to cancel it. Sightings lie on the path. Stretches join (`Account.trans`), so the account of a
run (`account_run`) is made of those of the functions that it calls. It begins with a ring that was just created
(`ledger_created`), so every moment of a run is sound, and exact as long as tokens last (`exact_sighting`).
-/

namespace Vigil.RingPoller

variable {K : Kernel}

/-! ## Consuming a completion -/

/-- A completion either leaves the tables as they are, or is the last one of the request of a registration, which then
has none. -/
theorem consume_cases (p : RingPoller) (c : Completion) :
    (p.consume c).poller = p ∧ (p.consume c).rearm = none ∨
      ∃ fd r, c.token ≠ ignoreToken ∧ p.owners.get? c.token = some fd ∧ p.registrations.get? fd = some r ∧
        c.more = false ∧ (p.consume c).poller = p.disarm c.token fd r ∧
        ((p.consume c).rearm = none ∨ (p.consume c).rearm = some (fd, r)) := by
  unfold consume
  split
  · exact .inl ⟨rfl, rfl⟩
  · rename_i h₀
    split
    · exact .inl ⟨rfl, rfl⟩
    · split
      · exact .inl ⟨rfl, rfl⟩
      · rename_i fd hfd
        split
        · exact .inl ⟨rfl, rfl⟩
        · rename_i r hr
          cases hm : c.more with
          | true =>
            refine .inl ?_
            dsimp only
            split <;> exact ⟨rfl, rfl⟩
          | false =>
            refine .inr ⟨fd, r, h₀, hfd, hr, rfl, ?_⟩
            dsimp only
            split
            · exact ⟨rfl, .inl rfl⟩
            · refine ⟨rfl, ?_⟩
              dsimp only
              split
              · exact .inr rfl
              · exact .inl rfl

namespace Sighting

/-- The completion is the last one of the request under a token. -/
structure Ends (x : Sighting K) (t : Token) : Prop where
  token : x.completion.token = t
  last : x.completion.more = false
  armed : t ∈ armedTokens x.prepared

theorem record_eq (x : Sighting K) : (x.poller.consume x.completion).record = x.record := by
  unfold consume record
  split
  · rfl
  · split
    · rfl
    · cases x.poller.owners.get? x.completion.token with
      | none => rfl
      | some fd =>
        dsimp only [bind, Option.bind]
        cases x.poller.registrations.get? fd with
        | none => rfl
        | some r =>
          dsimp only
          split <;> rfl

end Sighting

/-! ## Accounts -/

/-- The account of a stretch of a run, from one ledger to another, with what is sighted on the way and the moments
that ask for room. -/
structure Account (K : Kernel) (l : Ledger) (xs : List (Sighting K)) (ms : List (Moment K)) (l' : Ledger) : Prop where
  path : ∃ ds, Ledger.Path l ds l' ∧ (∀ t, .retire t .finished ∈ ds → ∃ x ∈ xs, x.Ends t) ∧
    ∀ t, .retire t .abandoned ∈ ds → ∃ m ∈ ms, m.grants = false
  before : ∀ x ∈ xs, ∃ ds, Ledger.Path l ds x.ledger
  after : ∀ x ∈ xs, ∃ ds, Ledger.Path x.consumed.ledger ds l'

namespace Account

theorem refl (l : Ledger) : Account K l [] [] l where
  path := ⟨[], .nil l, ⟨fun _ h => (List.not_mem_nil h).elim, fun _ h => (List.not_mem_nil h).elim⟩⟩
  before _ h := by cases h
  after _ h := by cases h

theorem trans {l l₁ l₂ : Ledger} {xs ys : List (Sighting K)} {ms ns : List (Moment K)} (h : Account K l xs ms l₁)
    (h' : Account K l₁ ys ns l₂) : Account K l (xs ++ ys) (ms ++ ns) l₂ := by
  obtain ⟨ds, hp, hf, ha⟩ := h.path
  obtain ⟨es, hq, hg, hb⟩ := h'.path
  refine ⟨⟨ds ++ es, hp.append hq, fun t ht => ?_, fun t ht => ?_⟩, fun x hx => ?_, fun x hx => ?_⟩
  · rcases List.mem_append.1 ht with ht | ht
    · obtain ⟨x, hx, he⟩ := hf t ht
      exact ⟨x, List.mem_append_left _ hx, he⟩
    · obtain ⟨x, hx, he⟩ := hg t ht
      exact ⟨x, List.mem_append_right _ hx, he⟩
  · rcases List.mem_append.1 ht with ht | ht
    · obtain ⟨m, hm, he⟩ := ha t ht
      exact ⟨m, List.mem_append_left _ hm, he⟩
    · obtain ⟨m, hm, he⟩ := hb t ht
      exact ⟨m, List.mem_append_right _ hm, he⟩
  · rcases List.mem_append.1 hx with hx | hx
    · exact h.before x hx
    · obtain ⟨fs, hr⟩ := h'.before x hx
      exact ⟨ds ++ fs, hp.append hr⟩
  · rcases List.mem_append.1 hx with hx | hx
    · obtain ⟨fs, hr⟩ := h.after x hx
      exact ⟨fs ++ es, hr.append hq⟩
    · exact h'.after x hx

theorem sound {l l' : Ledger} {xs : List (Sighting K)} {ms : List (Moment K)} (h : Account K l xs ms l')
    (hl : l.Sound) : l'.Sound := by
  obtain ⟨ds, hp, -⟩ := h.path
  exact hp.sound hl

/-- Everything that is sighted on the way is sighted at a sound moment. -/
theorem sound_sighting {l l' : Ledger} {xs : List (Sighting K)} {ms : List (Moment K)} (h : Account K l xs ms l')
    (hl : l.Sound) {x : Sighting K} (hx : x ∈ xs) : x.ledger.Sound := by
  obtain ⟨ds, hp⟩ := h.before x hx
  exact hp.sound hl

theorem weaken {l l' : Ledger} {xs : List (Sighting K)} {ms ns : List (Moment K)} (h : Account K l xs ms l')
    (hsub : ∀ m ∈ ms, m ∈ ns) : Account K l xs ns l' := by
  obtain ⟨ds, hp, hf, ha⟩ := h.path
  refine ⟨⟨ds, hp, hf, fun t ht => ?_⟩, h.before, h.after⟩
  obtain ⟨m, hm, hg⟩ := ha t ht
  exact ⟨m, hsub m hm, hg⟩

/-- A single deed, at a stretch without sightings. -/
theorem ofStep {l l' : Ledger} {d : Deed} (h : Ledger.Step l d l') (ms : List (Moment K))
    (hf : ∀ t, d ≠ .retire t .finished) (ha : ∀ t, d = .retire t .abandoned → ∃ m ∈ ms, m.grants = false) :
    Account K l [] ms l' where
  path := ⟨[d], h.path, fun t ht => absurd (List.mem_singleton.1 ht).symm (hf t), fun t ht =>
    ha t (List.mem_singleton.1 ht).symm⟩
  before _ hx := by cases hx
  after _ hx := by cases hx

end Account

/-! ## Putting registrations on and taking them off -/

/-- Canceling the request of a registration, and taking it off. -/
theorem account_cancel {p : RingPoller} {w : World K} {fd : Descriptor} {r : Registration}
    (h : p.registrations.get? fd = some r) :
    Account K (p.ledger w) [] (Moment.asksToCancel ⟨p, w⟩ r)
      (((p.cancel r w).1.ledger (p.cancel r w).2).forget fd) := by
  rw [ledger_cancel]
  by_cases ht : r.token = ignoreToken
  · rw [if_pos ht]
    exact .ofStep (.forget h ht) _ (fun _ he => by cases he) (fun _ he => by cases he)
  · rw [if_neg ht, Moment.asksToCancel, if_neg ht]
    refine .ofStep (.retire _ h ht) _ (fun t he => ?_) (fun t he => ?_)
    · injection he with _ he
      exact cancelFate_ne_finished p r.token w he
    · injection he with _ he
      exact ⟨_, List.mem_singleton.2 rfl, grants_of_cancelFate he⟩

/-- Arming a registration that was taken off. -/
theorem account_arm (p : RingPoller) (w : World K) (fd : Descriptor) (r : Registration) :
    Account K ((p.ledger w).forget fd) [] [] ((p.arm fd r w).1.ledger (p.arm fd r w).2) := by
  have hnone : ((p.ledger w).forget fd).registrations.get? fd = none := by
    simp [Ledger.forget, Table.get?_erase]
  have hrest : ((p.ledger w).forget fd).rest fd r = (p.ledger w).rest fd r := by
    simp [Ledger.forget, Ledger.rest, Table.insert_erase]
  have harm : ((p.ledger w).forget fd).arm fd r = (p.ledger w).arm fd r := by
    simp [Ledger.forget, Ledger.arm, Table.insert_erase]
  rw [ledger_arm]
  split
  · rw [← harm]
    exact .ofStep (.arm r hnone) _ (fun _ he => by cases he) (fun _ he => by cases he)
  · rw [← hrest]
    exact .ofStep (.rest r hnone) _ (fun _ he => by cases he) (fun _ he => by cases he)

/-- A completion is consumed; it may be the last one of a request. -/
theorem account_consumed (x : Sighting K) (hs : x.ledger.Sound) :
    ∃ ds, Ledger.Path x.ledger ds x.consumed.ledger ∧ (∀ t, .retire t .finished ∈ ds → x.Ends t) ∧
      ∀ t, .retire t .abandoned ∉ ds := by
  rcases consume_cases x.poller x.completion with ⟨hp, -⟩ | ⟨fd, r, h₀, hfd, hr, hm, hp, -⟩
  · refine ⟨[], ?_, fun _ h => (List.not_mem_nil h).elim, fun _ => List.not_mem_nil⟩
    unfold Sighting.consumed
    rw [hp]
    exact .nil _
  · obtain ⟨r', hr', ht⟩ := hs.owner _ _ h₀ hfd
    obtain rfl : r' = r := by
      rw [show x.ledger.registrations.get? fd = some r from hr] at hr'
      cases hr'
      rfl
    refine ⟨[.retire r'.token .finished, .rest fd r'], ?_, fun t h => ?_, fun t h => by simp at h⟩
    · have hnone : (x.ledger.retire fd r'.token .finished).registrations.get? fd = none := by
        simp [Ledger.retire, Table.get?_erase]
      have hend : (x.ledger.retire fd r'.token .finished).rest fd r' = x.consumed.ledger := by
        unfold Sighting.consumed
        rw [hp]
        simp [Moment.ledger, ledger, Ledger.retire, Ledger.rest, disarm, store, Fate.requests, Table.insert_erase, ht,
          Moment.prepared]
      rw [← hend]
      exact .cons (.retire .finished hr (ht ▸ h₀)) (.cons (.rest r' hnone) (.nil _))
    · have ht' : t = r'.token := by simpa using h
      rw [ht']
      exact ⟨ht.symm, hm, hs.mem hr (ht ▸ h₀)⟩

theorem ledger_renew (p : RingPoller) (fd : Descriptor) (r : Registration) (w : World K) :
    (p.renew (some (fd, r)) w).1.ledger (p.renew (some (fd, r)) w).2 =
      (p.arm fd r w).1.ledger (p.arm fd r w).2 :=
  ledger_submit _ _

/-- Going on from a completion; its registration may be armed again. -/
theorem account_next (x : Sighting K) : Account K x.consumed.ledger [] [] x.next.ledger := by
  rcases consume_cases x.poller x.completion with ⟨-, hn⟩ | ⟨fd, r, -, -, -, -, hp, hn | hn⟩
  · rw [x.next_eq_consumed hn]
    exact .refl _
  · rw [x.next_eq_consumed hn]
    exact .refl _
  · have hnext : x.next.ledger =
        (x.consumed.poller.arm fd r x.world).1.ledger (x.consumed.poller.arm fd r x.world).2 := by
      unfold Sighting.next
      rw [hn]
      exact ledger_renew _ _ _ _
    have hreg : x.consumed.ledger.registrations.get? fd = some { r with token := ignoreToken } := by
      unfold Sighting.consumed
      rw [hp]
      simp [Moment.ledger, ledger, disarm, store, Table.get?_insert]
    rw [hnext]
    exact (Account.ofStep (.forget hreg rfl) [] (fun _ he => by cases he) (fun _ he => by cases he)).trans
      (account_arm _ _ _ _)

/-- From one sighting to the next. -/
theorem account_sighting (x : Sighting K) (hs : x.ledger.Sound) : Account K x.ledger [x] [] x.next.ledger := by
  obtain ⟨ds, hp, hf, ha⟩ := account_consumed x hs
  obtain ⟨es, hq, hg, hb⟩ := (account_next x).path
  refine ⟨⟨ds ++ es, hp.append hq, fun t ht => ?_, fun t ht => ?_⟩, fun y hy => ?_, fun y hy => ?_⟩
  · rcases List.mem_append.1 ht with ht | ht
    · exact ⟨x, List.mem_singleton.2 rfl, hf t ht⟩
    · obtain ⟨y, hy, -⟩ := hg t ht
      cases hy
  · rcases List.mem_append.1 ht with ht | ht
    · exact absurd ht (ha t)
    · exact hb t ht
  · rw [List.mem_singleton.1 hy]
    exact ⟨[], .nil _⟩
  · rw [List.mem_singleton.1 hy]
    exact ⟨es, hq⟩

/-! ## Walks and waits -/

theorem reap_cons (c : Completion) (cs : List Completion) (room : Nat) (p : RingPoller) (w : World K) :
    reap (c :: cs) (room + 1) p w =
      let x : Sighting K := ⟨⟨p, w⟩, c⟩
      let r := reap cs (if x.record.isSome then room else room + 1) x.next.poller x.next.world
      (⟨r.1.poller, x.record.toList ++ r.1.records, r.1.seen + 1⟩, r.2) := by
  have h := Sighting.record_eq (⟨⟨p, w⟩, c⟩ : Sighting K)
  conv => lhs; unfold reap
  simp only [Sys.bind_apply, Sys.pure_apply]
  rw [← h]
  rfl

theorem account_walk : ∀ (cs : List Completion) (room : Nat) (m : Moment K), m.ledger.Sound →
    let r := reap cs room m.poller m.world
    Account K m.ledger (walk cs room m) [] (r.1.poller.ledger r.2)
  | [], _, _, _ => .refl _
  | _ :: _, 0, _, _ => .refl _
  | c :: cs, room + 1, m, hs => by
    have hx := account_sighting (⟨m, c⟩ : Sighting K) hs
    rw [reap_cons]
    exact hx.trans (account_walk cs _ _ (hx.sound hs))

/-- A call that hands no requests over leaves the ledger as it is. -/
theorem ledger_call (p : RingPoller) (w : World K) (c : Call)
    (hc : ∀ reply time, Exchange.taken ⟨c, reply, time⟩ = []) : p.ledger (call c w).2 = p.ledger w := by
  have : (call c w).2.trace.flatMap Exchange.taken = w.trace.flatMap Exchange.taken := by
    simp only [call, List.flatMap_append, List.flatMap_singleton]
    rw [hc, List.append_nil]
  simp only [ledger, Moment.prepared, this]

theorem account_harvest (p : RingPoller) (w : World K) (hs : (p.ledger w).Sound) :
    Account K (p.ledger w) (walk p.ring.completed Buffer.capacity ⟨p, w⟩) []
      ((p.harvest w).1.1.ledger (p.harvest w).2) := by
  have h := account_walk p.ring.completed Buffer.capacity (⟨p, w⟩ : Moment K) hs
  let r := reap p.ring.completed Buffer.capacity p w
  have hl : (p.harvest w).1.1.ledger (p.harvest w).2 = r.1.poller.ledger r.2 := by
    rw [← ledger_call r.1.poller r.2 (.ringAdvance r.1.seen) fun _ _ => rfl]
    rfl
  rw [hl]
  exact h

/-- What the account of a wait is made of. -/
theorem stretch_account : Stretch fun (m : Moment K) ws m' =>
    m.ledger.Sound → Account K m.ledger ws.flatten [] m'.ledger where
  refl _ _ := .refl _
  trans h h' hs := by
    rw [List.flatten_append]
    exact (h hs).trans (h' ((h hs).sound hs))
  noted _ _ _ _ := .refl _
  asked p w queued t _ := by
    have hl : Moment.ledger ⟨p, w⟩ = p.ledger (call (.ringWait queued t) w).2 :=
      (ledger_call p w (.ringWait queued t) fun _ _ => rfl).symm
    rw [hl]
    exact .refl _
  harvest p w hs := by
    rw [List.flatten_singleton]
    exact account_harvest p w hs

/-! ## Operations and runs -/

theorem forget_of_none {l : Ledger} {fd : Descriptor} (h : l.registrations.get? fd = none) : l.forget fd = l := by
  simp only [Ledger.forget, Table.erase_of_get?_eq_none h]

/-- A registration that is starved has no request. -/
theorem token_of_isStarved {p : RingPoller} {fd : Descriptor} (h : p.isStarved fd = true) :
    ∃ r, p.registrations.get? fd = some r ∧ r.token = ignoreToken := by
  unfold isStarved at h
  cases hr : p.registrations.get? fd with
  | none => simp [hr] at h
  | some r =>
    simp only [hr, Option.any_some, Bool.and_eq_true] at h
    exact ⟨r, rfl, eq_of_beq h.2⟩

theorem account_add (p : RingPoller) (fd : Descriptor) (e : Event) (mode : Mode) (w : World K) :
    Account K (p.ledger w) [] [] ((p.add fd e mode w).1.2.ledger (p.add fd e mode w).2) := by
  rw [add_apply]
  dsimp only
  split
  · exact .refl _
  · split
    · exact .refl _
    · rename_i hn
      have hnone : (p.ledger w).registrations.get? fd = none := Option.not_isSome_iff_eq_none.1 hn
      have harm := account_arm p (w.noted (.register .add none fd e mode)) fd ⟨e, mode, ignoreToken⟩
      rw [show p.ledger (w.noted (.register .add none fd e mode)) = p.ledger w from rfl, forget_of_none hnone] at harm
      split
      · rename_i hst
        obtain ⟨r, hr, ht⟩ := token_of_isStarved hst
        exact harm.trans (.ofStep (.forget hr ht) [] (fun _ he => by cases he) (fun _ he => by cases he))
      · rw [ledger_submit]
        exact harm

theorem account_modify (p : RingPoller) (fd : Descriptor) (e : Event) (mode : Mode) (w : World K) :
    Account K (p.ledger w) [] (Moment.asksOf ⟨p, w⟩ (.modify fd e mode))
      ((p.modify fd e mode w).1.2.ledger (p.modify fd e mode w).2) := by
  rw [modify_apply, Moment.asksOf]
  dsimp only
  cases hr : p.registrations.get? fd with
  | none =>
    dsimp only
    split <;> exact .refl _
  | some old =>
    dsimp only
    by_cases hm : mode = .level
    · rw [if_pos hm, if_pos hm]
      exact .refl _
    · rw [if_neg hm, if_neg hm, ledger_submit]
      have hc := account_cancel (w := w.noted (.register .modify none fd e mode)) hr
      have ha := account_arm (p.cancel old (w.noted (.register .modify none fd e mode))).1
        (p.cancel old (w.noted (.register .modify none fd e mode))).2 fd ⟨e, mode, ignoreToken⟩
      exact (hc.trans ha).weaken fun x hx => List.mem_append_left _ (by simpa using hx)

theorem account_remove (p : RingPoller) (fd : Descriptor) (w : World K) :
    Account K (p.ledger w) [] (Moment.asksOf ⟨p, w⟩ (.remove fd))
      ((p.remove fd w).1.2.ledger (p.remove fd w).2) := by
  rw [remove_apply, Moment.asksOf]
  dsimp only
  cases hr : p.registrations.get? fd with
  | none => exact .refl _
  | some old =>
    dsimp only
    rw [ledger_submit]
    exact account_cancel (w := w.noted (.remove none fd)) hr

/-- Waking queues a wake-up, if there is room for it. -/
theorem account_wake (p : RingPoller) (w : World K) :
    Account K (p.ledger w) [] [] ((p.wake w).1.ledger (p.wake w).2) := by
  have hsignal : ∀ v : World K, Account K (p.ledger v) [] [] ((p.signal v).1.2.ledger (p.signal v).2) := by
    intro v
    rw [signal_apply]
    dsimp only
    split
    · rw [ledger_submit, ledger_push, ledger_reserve]
      exact .ofStep .wake [] (fun _ he => by cases he) (fun _ he => by cases he)
    · rw [ledger_reserve]
      exact .refl _
  rw [wake_apply]
  dsimp only
  split
  · split <;> exact hsignal (w.noted (.wake p.fd))
  · exact .refl _

/-- The account of an operation. -/
theorem account_after (m : Moment K) (o : Operation) (hs : m.ledger.Sound) :
    Account K m.ledger (m.walksOf o).flatten (m.asksOf o) (m.after o).ledger := by
  cases o with
  | add fd e mode => exact (account_add m.poller fd e mode m.world).weaken fun _ h => by cases h
  | modify fd e mode => exact account_modify m.poller fd e mode m.world
  | remove fd => exact account_remove m.poller fd m.world
  | wake => exact (account_wake m.poller m.world).weaken fun _ h => by cases h
  | wait b timeout => exact (stretch_account.wait m.poller b timeout m.world hs).weaken fun _ h => by cases h

/-- The account of a run. -/
theorem account_run : ∀ (os : List Operation) (m : Moment K), m.ledger.Sound →
    Account K m.ledger (m.sightings os) (m.asks os) (m.run os).ledger
  | [], _, _ => .refl _
  | o :: os, m, hs => by
    have ho := account_after m o hs
    rw [Moment.sightings, Moment.walks, List.flatten_append]
    exact ho.trans (account_run os _ (ho.sound hs))

/-! ## Exact moments -/

theorem ledger_created (capacity : Nat) (s : K.State) : (Moment.created capacity s).ledger = {} := by
  unfold Moment.created init
  simp only [Sys.bind_apply]
  have hc : ∀ p : RingPoller, p.ledger (call (.ringCreate depth 0) ({ kernel := s } : World K)).2 =
      p.ledger { kernel := s } := fun p => ledger_call p _ _ fun _ _ => rfl
  generalize call (.ringCreate depth 0) ({ kernel := s } : World K) = r at hc
  obtain ⟨reply, v⟩ := r
  cases reply with
  | error code => exact hc _
  | ok offer =>
    dsimp only [Sys.ite_apply]
    cases offer <;> split <;> exact hc _

theorem sound_created (capacity : Nat) (s : K.State) : (Moment.created capacity s).ledger.Sound := by
  rw [ledger_created]
  exact Ledger.sound_empty

theorem exact_created (capacity : Nat) (s : K.State) : (Moment.created capacity s).ledger.Exact := by
  rw [ledger_created]
  exact Ledger.exact_empty

theorem exact_after {m : Moment K} {o : Operation} (hm : m.ledger.Exact)
    (hb : (m.after o).armed ≤ Ledger.tokenCount) : (m.after o).ledger.Exact := by
  obtain ⟨ds, hp, -⟩ := (account_after m o hm.toSound).path
  exact hp.exact hb hm

theorem exact_run {m : Moment K} {os : List Operation} (hm : m.ledger.Exact)
    (hb : (m.run os).armed ≤ Ledger.tokenCount) : (m.run os).ledger.Exact := by
  obtain ⟨ds, hp, -⟩ := (account_run os m hm.toSound).path
  exact hp.exact hb hm

theorem sound_run (capacity : Nat) (s : K.State) (os : List Operation) :
    ((Moment.created capacity s).run os).ledger.Sound :=
  (account_run os _ (sound_created capacity s)).sound (sound_created capacity s)

theorem armed_le_run {m : Moment K} (hm : m.ledger.Sound) (os : List Operation) : m.armed ≤ (m.run os).armed := by
  obtain ⟨ds, hp, -⟩ := (account_run os m hm).path
  exact hp.armed_le

theorem prepared_consumed (x : Sighting K) : x.consumed.prepared = x.prepared := by
  simp only [Moment.prepared, Sighting.consumed, ring_consume]

theorem armed_consumed (x : Sighting K) : x.consumed.armed = x.armed := by
  simp only [Moment.armed, prepared_consumed]

/-- A sighting of a run is at an exact moment, and so is what becomes of it; no more requests were armed then than at
the end. -/
theorem exact_sighting {m : Moment K} {os : List Operation} (hm : m.ledger.Exact)
    (hb : (m.run os).armed ≤ Ledger.tokenCount) {x : Sighting K} (hx : x ∈ m.sightings os) :
    x.ledger.Exact ∧ x.consumed.ledger.Exact ∧ x.armed ≤ (m.run os).armed := by
  have ha := account_run os m hm.toSound
  obtain ⟨ds, hp⟩ := ha.before x hx
  obtain ⟨es, hq⟩ := ha.after x hx
  have hle : x.armed ≤ (m.run os).armed := armed_consumed x ▸ hq.armed_le
  have he := hp.exact (Nat.le_trans hle hb) hm
  obtain ⟨fs, hr, -⟩ := account_consumed x he.toSound
  exact ⟨he, hr.exact (Nat.le_trans hq.armed_le hb) he, hle⟩

end Vigil.RingPoller
