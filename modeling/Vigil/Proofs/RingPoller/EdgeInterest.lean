import Mathlib.Data.List.Basic
import Vigil.Proofs.RingPoller.Trail
import Vigil.Replay

/-!
# Edge interest

Edge interest has to keep firing, so when the kernel ends the request of an edge registration, the registration is
armed again. A wait does so while it looks at the last completion of the request (`registrations_next`), and what it
looks at later leaves the registration alone (`registrations_trail`).

* **Edge interest is kept** (`edge_rearmed`): when the wait returns, the registration has a new request, and the kernel
  has taken it, if the kernel took all requests that the wait handed over, and the request was not canceled.
* **It is not kept in general** (`edge_lost`): a wait does not look at what comes of arming again. When the kernel turns
  the new request down, the wait succeeds all the same, and the request stays queued.
-/

namespace Vigil.RingPoller

variable {K : Kernel}

/-! ## Requests that watch something -/

/-- Registrations that have a request watch something. -/
def Purposeful (p : RingPoller) : Prop :=
  ∀ fd r, p.registrations.get? fd = some r → r.token ≠ ignoreToken → r.event.conditions ≠ 0

namespace Purposeful

variable {p q : RingPoller}

theorem congr (h : Purposeful p) (hq : q.registrations = p.registrations) : Purposeful q := by
  intro fd r hr
  rw [hq] at hr
  exact h fd r hr

theorem insert (h : Purposeful p) {fd : Descriptor} {r : Registration}
    (hq : q.registrations = p.registrations.insert fd r) (hr : r.token ≠ ignoreToken → r.event.conditions ≠ 0) :
    Purposeful q := by
  intro fd' r' hr'
  rw [hq, Table.get?_insert] at hr'
  split at hr'
  · cases hr'
    exact hr
  · exact h fd' r' hr'

theorem erase (h : Purposeful p) {fd : Descriptor} (hq : q.registrations = p.registrations.erase fd) :
    Purposeful q := by
  intro fd' r' hr'
  rw [hq, Table.get?_erase] at hr'
  split at hr'
  · cases hr'
  · exact h fd' r' hr'

/-- A registration gets a request only if it watches something. -/
theorem arm (h : Purposeful p) (fd : Descriptor) (r : Registration) (w : World K) : Purposeful (p.arm fd r w).1 := by
  refine h.insert (registrations_arm p fd r w) ?_
  split
  · rename_i hc
    intro _
    exact hc.1
  · intro h₀
    exact absurd rfl h₀

theorem consume (h : Purposeful p) (c : Completion) : Purposeful (p.consume c).poller := by
  rcases consume_cases p c with ⟨hc, -⟩ | ⟨fd, r, -, -, -, -, hc, -⟩
  · rw [hc]
    exact h
  · have hstored : (p.consume c).poller.registrations = p.registrations.insert fd { r with token := ignoreToken } := by
      rw [hc]
      rfl
    exact h.insert hstored fun h₀ => absurd rfl h₀

theorem kept : Kept K Purposeful where
  submit {p} w h := h.congr (registrations_submit p w)
  arm fd r w h := h.arm fd r w
  cancel {p} r w h := h.congr (registrations_cancel p r w)
  erase _ h := h.erase rfl
  signal _ h := h.congr rfl
  consume c h := h.consume c
  completed _ h := h.congr rfl

theorem created (capacity : Nat) (s : K.State) : Purposeful (Moment.created capacity s).poller := by
  have hempty : (Moment.created capacity s).poller.registrations = {} :=
    congrArg Ledger.registrations (ledger_created capacity s)
  intro fd r hr
  rw [hempty] at hr
  cases hr

end Purposeful

/-! ## Requests that end -/

namespace Sighting

/-- The completion is the last one of the request that a descriptor is armed with. -/
structure Closes (x : Sighting K) (fd : Descriptor) : Prop where
  last : x.completion.more = false
  owner : x.poller.owners.get? x.completion.token = some fd

/-- A completion that does not end the request of a descriptor leaves its registration alone. -/
theorem registrations_next_of_not_closes {x : Sighting K} {fd : Descriptor} (h : ¬ x.Closes fd) :
    x.next.poller.registrations.get? fd = x.poller.registrations.get? fd := by
  rcases consume_cases x.poller x.completion with ⟨hp, hn⟩ | ⟨fd', r, -, ho, -, hlast, hp, hn⟩
  · rw [x.next_eq_consumed hn]
    unfold consumed
    rw [hp]
  · have hne : fd ≠ fd' := by
      rintro rfl
      exact h ⟨hlast, ho⟩
    have hconsumed : x.consumed.poller.registrations.get? fd = x.poller.registrations.get? fd := by
      unfold consumed
      rw [hp]
      simp only [disarm, store, Table.get?_insert, if_neg hne]
    rcases hn with hn | hn
    · rw [x.next_eq_consumed hn, hconsumed]
    · have hrenewed : x.next.poller.registrations = (x.consumed.poller.arm fd' r x.world).1.registrations := by
        unfold next
        rw [hn]
        exact registrations_submit _ _
      rw [hrenewed, registrations_arm, Table.get?_insert, if_neg hne, hconsumed]

section Edge

variable {x : Sighting K} {fd : Descriptor} {r : Registration} (h : x.Closes fd)
  (h₀ : x.completion.token ≠ ignoreToken) (h₁ : x.completion.token ≠ wakeToken)
  (hr : x.poller.registrations.get? fd = some r) (hedge : r.mode = .edge)

include h h₀ h₁ hr

theorem Closes.consumed_poller : x.consumed.poller = x.poller.disarm x.completion.token fd r := by
  unfold consumed consume
  rw [if_neg h₀, if_neg h₁, h.owner]
  dsimp only
  rw [hr]
  dsimp only
  rw [h.last]
  split <;> rfl

include hedge

/-- An edge registration is armed again, unless its request was canceled. -/
theorem Closes.rearm :
    (x.poller.consume x.completion).rearm = if x.completion.result = -Code.canceled then none else some (fd, r) := by
  unfold consume
  rw [if_neg h₀, if_neg h₁, h.owner]
  dsimp only
  rw [hr]
  dsimp only
  rw [h.last, hedge]
  split <;> rfl

/-- The registration gets the next token if its request was not canceled, it watches anything and there was room. -/
theorem Closes.registrations_next :
    x.next.poller.registrations.get? fd = some { r with token :=
      if x.completion.result ≠ -Code.canceled ∧ r.event.conditions ≠ 0 ∧ x.consumed.grants = true
      then x.poller.nextToken else ignoreToken } := by
  have hpoller := h.consumed_poller h₀ h₁ hr
  have hrearm := h.rearm h₀ h₁ hr hedge
  by_cases hc : x.completion.result = -Code.canceled
  · rw [if_pos hc] at hrearm
    rw [x.next_eq_consumed hrearm, if_neg fun hcond => hcond.1 hc, hpoller]
    simp only [disarm, store, Table.get?_insert, if_true]
  · rw [if_neg hc] at hrearm
    have hrenewed : x.next.poller.registrations = (x.consumed.poller.arm fd r x.world).1.registrations := by
      unfold next
      rw [hrearm]
      exact registrations_submit _ _
    have hnext : x.consumed.poller.nextToken = x.poller.nextToken := by
      rw [hpoller]
      rfl
    rw [hrenewed, registrations_arm, Table.get?_insert, if_pos rfl, hnext]
    simp only [ne_eq, hc, not_false_eq_true, true_and]
    rfl

end Edge

end Sighting

/-- Where no completion ends the request of a descriptor, its registration stays as it is. -/
theorem registrations_trail {m m' : Moment K} {xs : List (Sighting K)} {fd : Descriptor} (ht : Trail m xs m')
    (h : ∀ x ∈ xs, ¬ x.Closes fd) : m'.poller.registrations.get? fd = m.poller.registrations.get? fd := by
  induction ht with
  | rest hq => rw [hq.registrations]
  | @see m m' x ys hq _ ih =>
    rw [ih fun y hy => h y (List.mem_cons_of_mem _ hy)]
    rw [Sighting.registrations_next_of_not_closes (h x List.mem_cons_self), hq.registrations]

/-! ## Registrations that are armed again -/

/-- A wait that looks at the last completion of a request grants the room for the next one, if the kernel takes what it
is handed. -/
theorem grants_of_trail {m m' : Moment K} {earlier later : List (Sighting K)} {x : Sighting K} {fd : Descriptor}
    {r : Registration} (ht : Trail m (earlier ++ x :: later) m') (hf : m.poller.ring.Fits)
    (htaking : Taking m.world m'.world) (hr : (x.poller.consume x.completion).rearm = some (fd, r))
    (hc : r.event.conditions ≠ 0) : x.consumed.grants = true := by
  have hring : x.consumed.poller.ring = x.poller.ring := ring_consume _ _
  have hfits : x.poller.ring.Fits := (fits (K := K)).kept.trail ht.split.1 hf
  obtain ⟨hnext, -⟩ := ht.taking htaking
  have hreserve : Taking x.world (x.consumed.poller.reserve x.world).2 := by
    let q := x.consumed.poller.arm fd r x.world
    have hq : q.2 = (x.consumed.poller.reserve x.world).2 := by
      show (x.consumed.poller.arm fd r x.world).2 = _
      rw [arm_apply, if_neg hc]
    have hworld : x.next.world = (q.1.submit q.2).2 := by
      unfold Sighting.next
      rw [hr]
      rfl
    rw [hworld] at hnext
    rw [← hq]
    exact (Reaches.taking (hq ▸ reaches_reserve x.consumed.poller x.world) (reaches_submit q.1 q.2) hnext).1
  exact grants_of_taking (hring ▸ hfits.capacity_pos) hreserve

/-- While tokens last, a wait looks at completions over exact tables, and before the last token is dealt out. -/
theorem exact_seen {m : Moment K} {o : Operation} (hm : m.ledger.Exact) (hb : (m.after o).armed < Ledger.tokenCount)
    {x : Sighting K} (hx : x ∈ (m.walksOf o).flatten) : x.ledger.Exact ∧ x.armed < Ledger.tokenCount := by
  have hmem : x ∈ m.sightings [o] := by
    rw [Moment.sightings, Moment.walks, Moment.walks, List.append_nil]
    exact hx
  obtain ⟨hexact, -, hle⟩ := @exact_sighting K m [o] hm (Nat.le_of_lt hb) x hmem
  exact ⟨hexact, Nat.lt_of_le_of_lt hle hb⟩

/-- A request that ends has watched something. -/
theorem Sighting.Closes.conditions {x : Sighting K} {fd : Descriptor} {r : Registration} (h : x.Closes fd)
    (hx : x.ledger.Exact) (hp : Purposeful x.poller) (h₀ : x.completion.token ≠ ignoreToken)
    (hr : x.poller.registrations.get? fd = some r) : r.event.conditions ≠ 0 := by
  obtain ⟨r', hr', htoken⟩ := hx.owner _ fd h₀ h.owner
  obtain rfl : r' = r := Option.some.inj (hr'.symm.trans hr)
  exact hp fd r' hr (htoken ▸ h₀)

/-- At a later moment, the descriptor of a sighting is armed under a token that was not dealt out before, and the
request under that token asks for what the registration says. -/
structure Rearmed (x : Sighting K) (m' : Moment K) (fd : Descriptor) (r : Registration) (t : Token) : Prop where
  registered : m'.poller.registrations.get? fd = some { r with token := t }
  owner : m'.poller.owners.get? t = some fd
  fresh : t ∉ armedTokens x.prepared
  queued : .pollMultishot fd r.event.conditions t ∈ m'.prepared

/-- A registration that got the next token at a sighting is armed under it as long as it keeps it. -/
theorem rearmed_of_registered {x : Sighting K} {m' : Moment K} {fd : Descriptor} {r : Registration}
    (hx : x.ledger.Exact) (hb : x.armed < Ledger.tokenCount) (hm' : m'.ledger.Exact) (hedge : r.mode = .edge)
    (h : m'.poller.registrations.get? fd = some { r with token := x.poller.nextToken }) :
    Rearmed x m' fd r x.poller.nextToken := by
  have hne : x.poller.nextToken ≠ ignoreToken := hx.next_ne_ignoreToken hb
  have hqueued := hm'.queued fd _ h hne
  rw [request, if_pos hedge] at hqueued
  exact ⟨h, hm'.owned fd _ h hne, hx.next_not_mem hb, hqueued⟩

/-- **Edge interest.** Take any wait of a run in which tokens last, any completion that it looks at and that is the
last one of the request of an edge registration, and let it look at none later that ends a request of the same
descriptor. When the wait returns, the registration is armed again: it is as before but for a fresh token, which has
the descriptor for its owner and is the one of a queued request that watches the descriptor each time for the
conditions of the registration. It is left without a request in two cases only, if the completion said that the request
was canceled, and if there was no room for another one. If the kernel takes all requests that the wait hands over, then
there is room on every ring that can hold a request at all, and the kernel has taken the new request by then. -/
theorem edge_rearmed (capacity : Nat) (s : K.State) (before : List Operation) (b : Buffer) (timeout : Timeout)
    (hb : (((Moment.created capacity s).run before).after (.wait b timeout)).armed < UInt64.size - 2) :
    let m := (Moment.created capacity s).run before
    let m' := m.after (.wait b timeout)
    ∀ earlier x later fd r, (m.walksOf (.wait b timeout)).flatten = earlier ++ x :: later → x.Closes fd →
      x.poller.registrations.get? fd = some r → r.mode = .edge → (∀ y ∈ later, ¬ y.Closes fd) →
        (x.completion.result = -Code.canceled ∨ x.consumed.grants = false →
          m'.poller.registrations.get? fd = some { r with token := ignoreToken }) ∧
        (x.completion.result ≠ -Code.canceled → x.consumed.grants = true → ∃ t, Rearmed x m' fd r t) ∧
        (x.completion.result ≠ -Code.canceled → 0 < capacity → Taking m.world m'.world →
          ∃ t, Rearmed x m' fd r t ∧
            .pollMultishot fd r.event.conditions t ∈ m'.world.trace.flatMap Exchange.taken) := by
  intro m m' earlier x later fd r hwalk hclose hr hedge hlater
  have htrail : Trail m (earlier ++ x :: later) m' := hwalk ▸ trail_wait m b timeout
  obtain ⟨hbefore, hafter⟩ := htrail.split
  -- tokens last at the sighting, so its token is that of the registration
  have hexact₀ : m.ledger.Exact := by
    have hsound := (account_run before _ (sound_created capacity s)).sound (sound_created capacity s)
    exact exact_run (exact_created capacity s) (Nat.le_trans (armed_le_run hsound [.wait b timeout]) (Nat.le_of_lt hb))
  have hexact' : m'.ledger.Exact := exact_after hexact₀ (Nat.le_of_lt hb)
  have hmem : x ∈ (m.walksOf (.wait b timeout)).flatten := hwalk ▸ List.mem_append_right _ List.mem_cons_self
  obtain ⟨hexact, hx⟩ := exact_seen hexact₀ hb hmem
  have harmed : x.completion.token ∈ armedTokens x.prepared := hexact.dealt _ _ hclose.owner
  have h₀ := hexact.ne_ignoreToken (Nat.le_of_lt hx) harmed
  have h₁ := hexact.ne_wakeToken (Nat.le_of_lt hx) harmed
  have hpurpose : Purposeful x.poller :=
    Purposeful.kept.trail hbefore (Purposeful.kept.run before (Purposeful.created capacity s))
  have hconditions := hclose.conditions hexact hpurpose h₀ hr
  -- what the sighting makes of the registration is left alone by the rest of the wait
  have hend := (registrations_trail hafter hlater).trans (hclose.registrations_next h₀ h₁ hr hedge)
  have hrearmed : x.completion.result ≠ -Code.canceled → x.consumed.grants = true →
      Rearmed x m' fd r x.poller.nextToken := by
    intro hc hg
    rw [if_pos ⟨hc, hconditions, hg⟩] at hend
    exact rearmed_of_registered hexact hx hexact' hedge hend
  refine ⟨?_, fun hc hg => ⟨_, hrearmed hc hg⟩, ?_⟩
  · intro hlost
    have hnot : ¬ (x.completion.result ≠ -Code.canceled ∧ r.event.conditions ≠ 0 ∧ x.consumed.grants = true) := by
      rintro ⟨hc, -, hg⟩
      rcases hlost with hlost | hlost
      · exact hc hlost
      · rw [hg] at hlost
        cases hlost
    rw [if_neg hnot] at hend
    exact hend
  · intro hc hcapacity htaking
    have hfits : m.poller.ring.Fits := (fits (K := K)).kept.run before (fits_created hcapacity s)
    have hrearm := hclose.rearm h₀ h₁ hr hedge
    rw [if_neg hc] at hrearm
    have hgiven := hrearmed hc (grants_of_trail htrail hfits htaking hrearm hconditions)
    refine ⟨_, hgiven, ?_⟩
    have hqueued := hgiven.queued
    rw [Moment.prepared, htrail.pending_of_rearm htaking hrearm, List.append_nil] at hqueued
    exact hqueued

/-- The kernel ends the request of an edge registration early, and takes the next one. -/
theorem edge_rearmed_overflow :
    let script : Script Service Entry := [(.ringWait, { completions := [⟨2, 1, true⟩, ⟨2, 1, false⟩] })]
    let m : Moment Replay.kernel := (Moment.created 1 ({ script } : Replay)).run [.add 5 (Event.all 7) .edge]
    let o := .wait Buffer.empty none
    let r : Registration := ⟨Event.all 7, .edge, 2⟩
    (m.after o).armed < UInt64.size - 2 ∧ Taking m.world (m.after o).world ∧
      ∃ y x, (m.walksOf o).flatten = [y, x] ∧ x.Closes 5 ∧ x.poller.registrations.get? 5 = some r ∧
        ∃ t, Rearmed x (m.after o) 5 r t ∧
          .pollMultishot 5 r.event.conditions t ∈ (m.after o).world.trace.flatMap Exchange.taken := by
  intro script m o r
  have hlength : (m.walksOf o).flatten.length = 2 := by decide +kernel
  obtain ⟨y, x, hwalk⟩ := List.length_eq_two.1 hlength
  -- a sighting holds a kernel, so what is said of it is evaluated, not the sighting itself
  have hcompletion : ((m.walksOf o).flatten.map (·.completion))[1]? = some ⟨2, 1, false⟩ := by decide +kernel
  have howner : ((m.walksOf o).flatten.map (·.poller.owners.get? 2))[1]? = some (some 5) := by decide +kernel
  have hregistration : ((m.walksOf o).flatten.map (·.poller.registrations.get? 5))[1]? = some (some r) := by
    decide +kernel
  rw [hwalk] at hcompletion howner hregistration
  have hx : x.completion = ⟨2, 1, false⟩ := Option.some.inj hcompletion
  have hclose : x.Closes 5 := by
    constructor
    · rw [hx]
    · rw [hx]
      exact Option.some.inj howner
  have hr : x.poller.registrations.get? 5 = some r := Option.some.inj hregistration
  have hb : (m.after o).armed < UInt64.size - 2 := by decide +kernel
  have htaking : Taking m.world (m.after o).world := by decide +kernel
  refine ⟨hb, htaking, y, x, hwalk, hclose, hr, ?_⟩
  have hcanceled : x.completion.result ≠ -Code.canceled := by
    rw [hx]
    decide
  obtain ⟨-, -, hkept⟩ :=
    edge_rearmed 1 _ _ Buffer.empty none hb [y] x [] 5 r hwalk hclose hr rfl (List.forall_mem_nil _)
  -- what was said of the wait is about the same terms, and need not be evaluated to see it
  with_reducible exact hkept hcanceled Nat.one_pos htaking

/-- The kernel ends the request of an edge registration and turns the next one down. The wait succeeds, and the
registration looks armed, but its request is only queued: the kernel has taken none but the one that ended. -/
theorem edge_lost :
    let script : Script Service Entry :=
      [(.ringSubmit, {}), (.ringSubmit, { error := some 11 }), (.ringWait, { completions := [⟨2, 1, false⟩] })]
    let m : Moment Replay.kernel := (Moment.created 8 ({ script } : Replay)).run [.add 5 (Event.all 7) .edge]
    let o := .wait Buffer.empty none
    m.answer o = { code := Code.success, records := [.poll ⟨1, 7⟩] } ∧
      (m.after o).poller.registrations.get? 5 = some ⟨Event.all 7, .edge, 3⟩ ∧
      (m.after o).poller.ring.pending = [.pollMultishot 5 (Event.all 7).conditions 3] ∧
      (m.after o).world.trace.flatMap Exchange.taken = [.pollMultishot 5 (Event.all 7).conditions 2] := by
  decide +kernel

end Vigil.RingPoller
