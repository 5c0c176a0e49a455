import Vigil.Proofs.RingPoller.Staleness
import Vigil.Proofs.RingPoller.Taking
import Vigil.Replay

/-!
# Requests that are revoked

Changing or dropping a registration first asks for room, to have the kernel cancel the request that was armed, and
ends with handing over whatever is queued (`after_of_revokes`). Both can fail on their own, and the operation returns
what the second one comes to.

* **What becomes of a revoked request** (`revoked_canceled`): with room, its cancellation is queued, and the kernel has
  taken it if the last submission leaves nothing behind. Without room it is not canceled, neither then nor ever.
* **The second does happen** (`revoked_polling`): the operation succeeds, although there was no room, and the kernel
  goes on polling.
-/

namespace Vigil.RingPoller

variable {K : Kernel}

/-- The kernel has taken a request to cancel the one under a token. -/
def Moment.HasCanceled (m : Moment K) (t : Token) : Prop :=
  .pollRemove t ignoreToken ∈ m.world.trace.flatMap Exchange.taken

instance (m : Moment K) (t : Token) : Decidable (m.HasCanceled t) :=
  inferInstanceAs (Decidable (_ ∈ m.world.trace.flatMap Exchange.taken))

/-! ## Asking for the cancellation -/

/-- The moment at which there has to be room to cancel the request of a registration. -/
def Moment.revoking (m : Moment K) (r : Registration) (message : Message) : Moment K :=
  ⟨{ m.poller with owners := m.poller.owners.erase r.token }, m.world.noted message⟩

/-- Canceling does no more to the world than asking for room does. -/
theorem world_canceled {m : Moment K} {r : Registration} (ht : r.token ≠ ignoreToken) (message : Message) :
    (Moment.canceled ⟨m.poller, m.world.noted message⟩ r).world =
      ((m.revoking r message).poller.reserve (m.revoking r message).world).2 := by
  have hcancel := congrArg Prod.snd (cancel_apply m.poller r (m.world.noted message))
  rw [if_neg ht] at hcancel
  exact hcancel

/-- What is queued by then is still queued, and the cancellation with it if there was room. -/
theorem prepared_canceled {m : Moment K} {r : Registration} (ht : r.token ≠ ignoreToken) (message : Message) :
    (Moment.canceled ⟨m.poller, m.world.noted message⟩ r).prepared =
      m.prepared ++ if (m.revoking r message).grants = true then [.pollRemove r.token ignoreToken] else [] := by
  let w := m.world.noted message
  have hledger := congrArg Ledger.prepared (ledger_cancel m.poller 0 r w)
  rw [if_neg ht] at hledger
  refine hledger.trans ?_
  show m.prepared ++ Fate.requests r.token (m.poller.cancelFate r.token w) = _
  unfold cancelFate
  by_cases hg : (m.revoking r message).grants = true
  · rw [if_pos hg]
    exact congrArg (m.prepared ++ Fate.requests r.token ·) (if_pos hg)
  · rw [if_neg hg]
    exact congrArg (m.prepared ++ Fate.requests r.token ·) (if_neg hg)

/-- Arming queues no cancellations. -/
theorem prepared_arm (p : RingPoller) (fd : Descriptor) (r : Registration) (w : World K) :
    ∃ new, Moment.prepared ⟨(p.arm fd r w).1, (p.arm fd r w).2⟩ = Moment.prepared ⟨p, w⟩ ++ new ∧
      targets new = [] := by
  have hledger := congrArg Ledger.prepared (ledger_arm p fd r w)
  split at hledger
  · exact ⟨[request fd r p.nextToken], hledger, by simp [targets]⟩
  · exact ⟨[], hledger.trans (List.append_nil _).symm, rfl⟩

/-- An operation that revokes an armed registration asks for room to cancel the request, and after that queues no
other cancellation until it hands over what is queued. -/
theorem after_of_revokes {m : Moment K} {o : Operation} {fd : Descriptor} {r : Registration} (ho : m.Revokes fd o)
    (hr : m.poller.registrations.get? fd = some r) (ht : r.token ≠ ignoreToken) :
    ∃ message rest, ∃ u : Moment K, m.asksOf o = m.revoking r message :: rest ∧
      m.after o = ⟨(u.poller.submit u.world).1.2, (u.poller.submit u.world).2⟩ ∧
      Reaches (fun _ => True) (Moment.canceled ⟨m.poller, m.world.noted message⟩ r).world u.world ∧
      ∃ new, u.prepared = (Moment.canceled ⟨m.poller, m.world.noted message⟩ r).prepared ++ new ∧
        targets new = [] := by
  cases o with
  | modify fd' e mode =>
    obtain ⟨rfl, hmode, -⟩ := ho
    let message : Message := .register .modify none fd' e mode
    let c := Moment.canceled ⟨m.poller, m.world.noted message⟩ r
    let a := c.poller.arm fd' ⟨e, mode, ignoreToken⟩ c.world
    refine ⟨message, c.asksToArm ⟨e, mode, ignoreToken⟩, ⟨a.1, a.2⟩, ?_, ?_, ?_, prepared_arm _ _ _ _⟩
    · simp only [Moment.asksOf, hr, if_neg hmode, Moment.asksToCancel, if_neg ht]
      rfl
    · have hmodify := modify_registered hr hmode e m.world
      exact congrArg (fun q => (⟨q.1.2, q.2⟩ : Moment K)) hmodify
    · exact (built_arm (fun _ => trivial) c.poller fd' _).confined c.world
  | remove fd' =>
    obtain rfl : fd' = fd := ho
    let message : Message := .remove none fd'
    let c := Moment.canceled ⟨m.poller, m.world.noted message⟩ r
    refine ⟨message, [], ⟨{ c.poller with registrations := c.poller.registrations.erase fd' }, c.world⟩, ?_, ?_, .refl,
      [], (List.append_nil _).symm, rfl⟩
    · simp only [Moment.asksOf, hr, Moment.asksToCancel, if_neg ht]
      rfl
    · have hremove := remove_apply m.poller fd' m.world
      dsimp only at hremove
      rw [hr] at hremove
      exact congrArg (fun q => (⟨q.1.2, q.2⟩ : Moment K)) hremove
  | add _ _ _ => exact ho.elim
  | wake => exact ho.elim
  | wait _ _ => exact ho.elim

/-! ## What becomes of the request -/

/-- Where nothing is queued, the kernel has taken all that ever was. -/
theorem Moment.taken_of_prepared {m : Moment K} (h : m.poller.ring.pending = []) {s : Submission}
    (hs : s ∈ m.prepared) : s ∈ m.world.trace.flatMap Exchange.taken := by
  rwa [prepared, h, List.append_nil] at hs

/-- A request that was revoked without room to cancel it is never canceled, as long as tokens last. -/
theorem never_canceled {m : Moment K} {o : Operation} {fd : Descriptor} {r : Registration} (hm : m.ledger.Exact)
    (ho : m.Revokes fd o) (hr : m.poller.registrations.get? fd = some r) (ht : r.token ≠ ignoreToken)
    (hkept : targets (m.after o).prepared = targets m.prepared) (later : List Operation)
    (hb : ((m.after o).run later).armed < Ledger.tokenCount) : r.token ∉ targets ((m.after o).run later).prepared := by
  have hsound := (account_after m o hm.toSound).sound hm.toSound
  have hlt := Nat.lt_of_le_of_lt (armed_le_run hsound later) hb
  have hexact := exact_after hm (Nat.le_of_lt hlt)
  have hgone := gone_of_revokes hm hlt ho (armedFor_of_mem (hm.queued fd r hr ht))
  obtain ⟨ds, hp, -⟩ := (account_run later (m.after o) hsound).path
  obtain ⟨-, new, hnew, hnot⟩ := hp.gone (Nat.le_of_lt hb) hexact hgone
  have hprepared : ((m.after o).run later).prepared = (m.after o).prepared ++ new := hnew
  rw [hprepared, targets_append, hkept]
  exact List.not_mem_append (hm.not_canceled hr ht) hnot

/-- **Revoked requests.** Whatever was done before, let an operation change or drop a registration whose request is
armed, and let it return anything. The first thing that it does is to ask for room to cancel the request. If there is
room, the cancellation is queued, and the kernel has taken it by the time the operation returns if the last exchange,
which hands requests over, leaves none behind. If there is no room, then the kernel is not asked to cancel the request,
neither by this operation nor by any later one while tokens last. If the kernel takes all requests that the operation
hands over, there is room on every ring that can hold a request at all, and the cancellation is taken. -/
theorem revoked_canceled (capacity : Nat) (s : K.State) (before : List Operation) {o : Operation} {fd : Descriptor}
    {r : Registration} (ho : ((Moment.created capacity s).run before).Revokes fd o)
    (hr : ((Moment.created capacity s).run before).poller.registrations.get? fd = some r)
    (ht : r.token ≠ ignoreToken) :
    let m := (Moment.created capacity s).run before
    let m' := m.after o
    ∃ ask rest, m.asksOf o = ask :: rest ∧
      (ask.grants = true →
        .pollRemove r.token ignoreToken ∈ m'.prepared ∧
          ∃ earlier requests reply t, m'.world.trace = earlier ++ [⟨.ringSubmit requests, reply, t⟩] ∧
            (Exchange.leavesRequests ⟨.ringSubmit requests, reply, t⟩ = false → m'.HasCanceled r.token)) ∧
      (ask.grants = false → ∀ later, (m'.run later).armed < UInt64.size - 2 →
        r.token ∉ targets (m'.run later).prepared) ∧
      (0 < capacity → Taking m.world m'.world → m'.HasCanceled r.token) := by
  intro m m'
  obtain ⟨message, rest, u, hasks, hafter, hreaches, new, hnew, htargets⟩ := after_of_revokes ho hr ht
  let ask := m.revoking r message
  have hprepared : m'.prepared =
      m.prepared ++ (if ask.grants = true then [.pollRemove r.token ignoreToken] else []) ++ new := by
    rw [← prepared_canceled ht message, ← hnew, ← (handover_submit u.poller u.world).prepared]
    exact congrArg Moment.prepared hafter
  have hqueued : ask.grants = true → .pollRemove r.token ignoreToken ∈ m'.prepared := by
    intro hg
    rw [hprepared, if_pos hg]
    exact List.mem_append_left _ (List.mem_append_right _ (List.mem_singleton.2 rfl))
  have hpoller : m'.poller = (u.poller.submit u.world).1.2 := congrArg Moment.poller hafter
  have hworld : m'.world = (u.poller.submit u.world).2 := congrArg Moment.world hafter
  refine ⟨ask, rest, hasks, fun hg => ⟨hqueued hg, ?_⟩, ?_, ?_⟩
  · obtain ⟨earlier, reply, t, htrace, hlast⟩ := submit_last u.poller u.world
    refine ⟨u.world.trace ++ earlier, u.poller.ring.pending, reply, t, hworld ▸ htrace, fun hleaves => ?_⟩
    refine Moment.taken_of_prepared ?_ (hqueued hg)
    rw [hpoller, hlast hleaves]
  · intro hg later hb
    have hkept : targets m'.prepared = targets m.prepared := by
      rw [hprepared, if_neg (Bool.eq_false_iff.1 hg), targets_append, targets_append, htargets]
      simp [targets]
    have hle := Nat.le_trans (armed_le_run (sound_run capacity s before) (o :: later)) (Nat.le_of_lt hb)
    exact never_canceled (exact_run (exact_created capacity s) hle) ho hr ht hkept later hb
  · intro hcapacity htaking
    have hfits : m.poller.ring.Fits := (fits (K := K)).kept.run before (fits_created hcapacity s)
    have hcancel : Reaches (fun _ => True) ask.world (Moment.canceled ⟨m.poller, m.world.noted message⟩ r).world :=
      (built_cancel (fun _ => trivial) m.poller r).confined ask.world
    rw [hworld] at htaking
    obtain ⟨hbefore, hsubmit⟩ := (hcancel.trans hreaches).taking (reaches_submit u.poller u.world) htaking
    obtain ⟨hreserve, -⟩ := hcancel.taking hreaches hbefore
    rw [world_canceled ht message] at hreserve
    have hg : ask.grants = true := grants_of_taking hfits.capacity_pos hreserve
    refine Moment.taken_of_prepared ?_ (hqueued hg)
    rw [hpoller, submit_of_taking hsubmit]

/-- A ring with room for one request, where changing a registration queues two, one after the other. -/
theorem revoked_canceled_changed :
    let before := [.add 5 (Event.all 7) .edge]
    let m : Moment Replay.kernel := (Moment.created 1 ({} : Replay)).run before
    let o := .modify 5 (Event.all 8) .oneshot
    let r : Registration := ⟨Event.all 7, .edge, 2⟩
    m.Revokes 5 o ∧ m.poller.registrations.get? 5 = some r ∧ r.token ≠ ignoreToken ∧
      Taking m.world (m.after o).world ∧ (m.after o).HasCanceled r.token := by
  intro before m o r
  have ho : m.Revokes 5 o := ⟨rfl, by decide, by decide +kernel⟩
  have hr : m.poller.registrations.get? 5 = some r := by decide +kernel
  have ht : r.token ≠ ignoreToken := by decide
  have htaking : Taking m.world (m.after o).world := by decide +kernel
  obtain ⟨ask, rest, -, -, -, htaken⟩ := @revoked_canceled Replay.kernel 1 {} before o 5 r ho hr ht
  refine ⟨ho, hr, ht, htaking, ?_⟩
  -- what was said of the operation is about the same terms, and need not be evaluated to see it
  with_reducible exact htaken Nat.one_pos htaking

/-- The ring is full of a request that the kernel turned down, and the kernel turns it down once more when there has to
be room to cancel the request of another registration. Then it takes what is queued, so dropping the registration
succeeds, and so does changing it. The kernel was not asked to cancel anything, and nothing is queued to ask it. -/
theorem revoked_polling :
    let script : Script Service Entry :=
      [(.ringSubmit, {}), (.ringSubmit, { error := some 11 }), (.ringSubmit, { error := some 11 })]
    let m : Moment Replay.kernel :=
      (Moment.created 1 ({ script } : Replay)).run [.add 5 (Event.all 7) .oneshot, .add 6 (Event.all 8) .oneshot]
    m.poller.registrations.get? 5 = some ⟨Event.all 7, .oneshot, 2⟩ ∧
      ∀ o ∈ [Operation.remove 5, .modify 5 (Event.all 9) .oneshot],
        (m.answer o).code = Code.success ∧ ¬ (m.after o).HasCanceled 2 ∧ targets (m.after o).prepared = [] ∧
          (m.after o).poller.ring.pending = [] := by
  decide +kernel

end Vigil.RingPoller
