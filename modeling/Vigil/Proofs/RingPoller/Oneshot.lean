import Vigil.Proofs.RingPoller.EdgeInterest
import Vigil.Proofs.RingPoller.Staleness
import Vigil.Replay

/-!
# Registrations that fire once

A registration of any mode but edge is watched by requests that complete once. The completion takes the request away,
and nothing but a change arms the registration again: as long as nobody changes or drops it, a registration goes from
having its request to having none (`Spends`), at the sighting that reports it at the latest (`spends_sighting`), and
operations other than waits leave it alone (`registrations_after_of_spared`).

* **Such a registration fires once** (`oneshot_once`): between the operation that set it and the next one that changes
  or drops it, at most one of all completions becomes a record for it. From then on it is there without a request,
  until a change with a mode that rings have arms it again.
* **A change to a mode that rings do not have does not** (`Moment.modify_level`, `level_not_armed`): it is turned down.
-/

namespace Vigil.RingPoller

variable {K : Kernel}

/-! ## Reports -/

/-- The descriptor is registered as it was, but without a request. -/
def Moment.Rests (m : Moment K) (fd : Descriptor) (r : Registration) : Prop :=
  m.poller.registrations.get? fd = some { r with token := ignoreToken }

/-- The descriptor is registered as it was, with its request or without. -/
def Moment.Stands (m : Moment K) (fd : Descriptor) (r : Registration) : Prop :=
  m.poller.registrations.get? fd = some r ∨ m.Rests fd r

namespace Sighting

/-- The completion becomes a record of what a descriptor is registered for. -/
def reports (x : Sighting K) (fd : Descriptor) : Bool :=
  x.record.isSome && x.completion.token != wakeToken && x.poller.owners.get? x.completion.token == some fd

/-- No more completions are announced for a request that completes once. -/
def EndsSingle (x : Sighting K) : Prop :=
  ∀ fd mask, .pollAdd fd mask x.completion.token ∈ x.prepared → x.completion.more = false

variable {x : Sighting K} {fd : Descriptor} {r : Registration}

/-- What is reported of a descriptor is the completion of the request that it is armed with. -/
theorem armed_of_reports (hs : x.ledger.Sound) (h : x.reports fd = true) :
    x.completion.token ≠ ignoreToken ∧ x.completion.token ≠ wakeToken ∧
      x.poller.owners.get? x.completion.token = some fd ∧
      ∃ r, x.poller.registrations.get? fd = some r ∧ r.token = x.completion.token := by
  unfold reports at h
  simp only [Bool.and_eq_true, bne_iff_ne, beq_iff_eq] at h
  obtain ⟨⟨hrecord, h₁⟩, howner⟩ := h
  have h₀ : x.completion.token ≠ ignoreToken := by
    intro h₀
    rw [record, if_pos h₀] at hrecord
    cases hrecord
  exact ⟨h₀, h₁, howner, hs.owner _ fd h₀ howner⟩

/-- A registration without a request is not reported. -/
theorem not_reports_of_rests (hs : x.ledger.Sound) (h : x.Rests fd r) : x.reports fd = false := by
  cases hx : x.reports fd with
  | false => rfl
  | true =>
    obtain ⟨h₀, -, -, r', hr', ht⟩ := armed_of_reports hs hx
    rw [h] at hr'
    cases hr'
    exact absurd ht.symm h₀

/-- Only edge registrations are armed again. -/
theorem edge_of_rearm {p : RingPoller} {c : Completion} (h : (p.consume c).rearm = some (fd, r)) : r.mode = .edge := by
  unfold consume at h
  split at h
  · cases h
  · split at h
    · cases h
    · split at h
      · cases h
      · split at h
        · cases h
        · dsimp only at h
          split at h
          · cases h
          · dsimp only at h
            split at h
            · rename_i hedge
              cases h
              simp only [Bool.and_eq_true, decide_eq_true_eq] at hedge
              exact hedge.2
            · cases h

/-- A completion leaves a registration that is not for edges as it is, or without its request. -/
theorem stands_next (hm : r.mode ≠ .edge) (h : x.poller.registrations.get? fd = some r) : x.next.Stands fd r := by
  rcases consume_cases x.poller x.completion with ⟨hp, hn⟩ | ⟨fd', r', -, ho, hr', hlast, hp, hn⟩
  · rw [x.next_eq_consumed hn]
    refine .inl ?_
    unfold consumed
    rw [hp]
    exact h
  · by_cases hfd : fd' = fd
    · subst hfd
      obtain rfl : r' = r := Option.some.inj (hr'.symm.trans h)
      have hrearm : (x.poller.consume x.completion).rearm = none :=
        hn.resolve_right fun hedge => hm (edge_of_rearm hedge)
      rw [x.next_eq_consumed hrearm]
      refine .inr ?_
      unfold Moment.Rests consumed
      rw [hp]
      simp only [disarm, store, Table.get?_insert, if_true]
    · have hnot : ¬ x.Closes fd := fun hc => hfd (Option.some.inj (ho.symm.trans hc.owner))
      exact .inl ((registrations_next_of_not_closes hnot).trans h)

/-- What is reported of a registration that is not for edges takes its request away. -/
theorem rests_next_of_reports (hs : x.ledger.Sound) (hsingle : x.EndsSingle) (hm : r.mode ≠ .edge)
    (h : x.poller.registrations.get? fd = some r) (hx : x.reports fd = true) : x.next.Rests fd r := by
  obtain ⟨h₀, h₁, howner, r', hr', ht⟩ := armed_of_reports hs hx
  obtain rfl : r' = r := Option.some.inj (hr'.symm.trans h)
  have hqueued := hs.queued fd r' h (ht ▸ h₀)
  rw [request, if_neg hm, ht] at hqueued
  have hclose : x.Closes fd := ⟨hsingle _ _ hqueued, howner⟩
  have hrearm : (x.poller.consume x.completion).rearm = none := by
    rcases consume_cases x.poller x.completion with ⟨-, hn⟩ | ⟨fd', r, -, ho, hr, -, -, hn⟩
    · exact hn
    · obtain rfl : fd' = fd := Option.some.inj (ho.symm.trans howner)
      obtain rfl : r = r' := Option.some.inj (hr.symm.trans h)
      exact hn.resolve_right fun hedge => hm (edge_of_rearm hedge)
  rw [x.next_eq_consumed hrearm]
  unfold Moment.Rests
  rw [hclose.consumed_poller h₀ h₁ h]
  simp only [disarm, store, Table.get?_insert, if_true]

end Sighting

/-! ## Spending a request -/

/-- From one moment to another, a registration stands. It has no request any more once it had none, and once it was
reported. -/
structure Spends (fd : Descriptor) (r : Registration) (m : Moment K) (xs : List (Sighting K)) (m' : Moment K) :
    Prop where
  stands : m'.Stands fd r
  rests : m.Rests fd r → (∀ x ∈ xs, x.Rests fd r) ∧ m'.Rests fd r
  fires : xs.Pairwise (fun x y => x.reports fd = true → y.Rests fd r) ∧ ∀ x ∈ xs, x.reports fd = true → m'.Rests fd r

namespace Spends

variable {fd : Descriptor} {r : Registration} {m m₁ m₂ : Moment K} {xs ys : List (Sighting K)}

theorem ofEq (h : m.Stands fd r) (he : m₁.poller.registrations.get? fd = m.poller.registrations.get? fd) :
    Spends fd r m [] m₁ where
  stands := by
    unfold Moment.Stands Moment.Rests
    rw [he]
    exact h
  rests hr := ⟨List.forall_mem_nil _, he.trans hr⟩
  fires := ⟨.nil, List.forall_mem_nil _⟩

theorem trans (h : Spends fd r m xs m₁) (h' : Spends fd r m₁ ys m₂) : Spends fd r m (xs ++ ys) m₂ where
  stands := h'.stands
  rests hr := by
    obtain ⟨hxs, hm₁⟩ := h.rests hr
    obtain ⟨hys, hm₂⟩ := h'.rests hm₁
    exact ⟨List.forall_mem_append.2 ⟨hxs, hys⟩, hm₂⟩
  fires := by
    obtain ⟨hxs, hm₁⟩ := h.fires
    obtain ⟨hys, hm₂⟩ := h'.fires
    refine ⟨List.pairwise_append.2 ⟨hxs, hys, fun x hx y hy hr => ?_⟩,
      List.forall_mem_append.2 ⟨fun x hx hr => ?_, hm₂⟩⟩
    · exact (h'.rests (hm₁ x hx hr)).1 y hy
    · exact (h'.rests (hm₁ x hx hr)).2

end Spends

section

variable {fd : Descriptor} {r : Registration} (hmode : r.mode ≠ .edge)

include hmode

theorem spends_sighting {x : Sighting K} (hs : x.ledger.Sound) (hsingle : x.EndsSingle) (h : x.Stands fd r) :
    Spends fd r x.toMoment [x] x.next where
  stands := by
    rcases h with h | h
    · exact x.stands_next hmode h
    · rcases x.stands_next (r := { r with token := ignoreToken }) hmode h with hn | hn
      · exact .inr hn
      · exact .inr hn
  rests hr := by
    refine ⟨List.forall_mem_singleton.2 hr, ?_⟩
    rcases x.stands_next (r := { r with token := ignoreToken }) hmode hr with hn | hn
    · exact hn
    · exact hn
  fires := by
    refine ⟨List.pairwise_singleton _ _, List.forall_mem_singleton.2 fun hx => ?_⟩
    rcases h with h | h
    · exact x.rests_next_of_reports hs hsingle hmode h hx
    · rw [x.not_reports_of_rests hs h] at hx
      cases hx

theorem spends_trail {m m' : Moment K} {xs : List (Sighting K)} (ht : Trail m xs m')
    (hs : ∀ x ∈ xs, x.ledger.Sound) (hsingle : ∀ x ∈ xs, x.EndsSingle) (h : m.Stands fd r) :
    Spends fd r m xs m' := by
  induction ht with
  | rest hq => exact .ofEq h (by rw [hq.registrations])
  | @see m m' x ys hq _ ih =>
    have hx : Spends fd r m [] x.toMoment := .ofEq h (by rw [hq.registrations])
    have hnext := spends_sighting hmode (hs x List.mem_cons_self) (hsingle x List.mem_cons_self) hx.stands
    have hrest := ih (fun y hy => hs y (List.mem_cons_of_mem _ hy)) (fun y hy => hsingle y (List.mem_cons_of_mem _ hy))
      hnext.stands
    exact hx.trans (hnext.trans hrest)

end

/-! ## Operations and runs -/

/-- Operations that do not wait leave a registration alone, unless they change or drop it. -/
theorem registrations_after_of_spared {m : Moment K} {o : Operation} {fd : Descriptor}
    (hfound : (m.poller.registrations.get? fd).isSome = true) (ho : ¬ m.Revokes fd o)
    (hwait : ∀ b timeout, o ≠ .wait b timeout) :
    (m.after o).poller.registrations.get? fd = m.poller.registrations.get? fd := by
  cases o with
  | add fd' e mode =>
    show (m.poller.add fd' e mode m.world).1.2.registrations.get? fd = _
    rw [add_apply]
    dsimp only
    split
    · rfl
    · split
      · rfl
      · rename_i hvacant
        have hne : fd ≠ fd' := by
          rintro rfl
          exact hvacant hfound
        split
        · rw [Table.get?_erase, if_neg hne, registrations_arm, Table.get?_insert, if_neg hne]
        · rw [registrations_submit, registrations_arm, Table.get?_insert, if_neg hne]
  | modify fd' e mode =>
    show (m.poller.modify fd' e mode m.world).1.2.registrations.get? fd = _
    rw [modify_apply]
    dsimp only
    split
    · rfl
    · rename_i hmode
      have hne : fd ≠ fd' := by
        rintro rfl
        exact ho ⟨rfl, hmode, hfound⟩
      cases m.poller.registrations.get? fd' with
      | none => rfl
      | some old =>
        dsimp only
        rw [registrations_submit, registrations_arm, Table.get?_insert, if_neg hne, registrations_cancel]
  | remove fd' =>
    have hne : fd ≠ fd' := by
      rintro rfl
      exact ho rfl
    show (m.poller.remove fd' m.world).1.2.registrations.get? fd = _
    rw [remove_apply]
    dsimp only
    cases m.poller.registrations.get? fd' with
    | none => rfl
    | some old =>
      dsimp only
      rw [registrations_submit, Table.get?_erase, if_neg hne, registrations_cancel]
  | wake =>
    show (m.poller.wake m.world).1.registrations.get? fd = _
    rw [registrations_wake]
  | wait b timeout => exact absurd rfl (hwait b timeout)

/-- A registration that stands is there. -/
theorem Moment.Stands.isSome {m : Moment K} {fd : Descriptor} {r : Registration} (h : m.Stands fd r) :
    (m.poller.registrations.get? fd).isSome = true := by
  rcases h with h | h
  · rw [h]
    rfl
  · rw [h]
    rfl

/-- No operation of a run changes or drops what a descriptor is registered for. -/
def Moment.Spares (m : Moment K) (fd : Descriptor) (os : List Operation) : Prop :=
  ∀ earlier o later, os = earlier ++ o :: later → ¬ (m.run earlier).Revokes fd o

theorem Moment.Spares.cons {m : Moment K} {fd : Descriptor} {o : Operation} {os : List Operation}
    (h : m.Spares fd (o :: os)) : ¬ m.Revokes fd o ∧ (m.after o).Spares fd os := by
  refine ⟨h [] o os rfl, fun earlier o' later he => ?_⟩
  subst he
  exact h (o :: earlier) o' later rfl

section

variable {fd : Descriptor} {r : Registration} (hmode : r.mode ≠ .edge)

include hmode

theorem spends_after {m : Moment K} {o : Operation} (hm : m.ledger.Sound) (h : m.Stands fd r) (ho : ¬ m.Revokes fd o)
    (hsingle : ∀ x ∈ (m.walksOf o).flatten, x.EndsSingle) :
    Spends fd r m (m.walksOf o).flatten (m.after o) := by
  by_cases hwait : ∃ b timeout, o = .wait b timeout
  · obtain ⟨b, timeout, rfl⟩ := hwait
    have hsound : ∀ x ∈ (m.walksOf (.wait b timeout)).flatten, x.ledger.Sound := fun x hx =>
      (account_after m (.wait b timeout) hm).sound_sighting hm hx
    exact spends_trail hmode (trail_wait m b timeout) hsound hsingle h
  · have hnot : ∀ b timeout, o ≠ .wait b timeout := fun b timeout he => hwait ⟨b, timeout, he⟩
    have hkept := registrations_after_of_spared h.isSome ho hnot
    cases o with
    | wait b timeout => exact absurd rfl (hnot b timeout)
    | _ => exact .ofEq h hkept

theorem spends_run : ∀ (os : List Operation) (m : Moment K), m.ledger.Sound → m.Stands fd r → m.Spares fd os →
    (∀ x ∈ m.sightings os, x.EndsSingle) → Spends fd r m (m.sightings os) (m.run os)
  | [], _, _, h, _, _ => .ofEq h rfl
  | o :: os, m, hm, h, hspared, hsingle => by
    have hflatten : m.sightings (o :: os) = (m.walksOf o).flatten ++ (m.after o).sightings os := List.flatten_append
    rw [hflatten] at hsingle ⊢
    obtain ⟨hfirst, hrest⟩ := List.forall_mem_append.1 hsingle
    obtain ⟨ho, hos⟩ := hspared.cons
    have hafter := spends_after hmode hm h ho hfirst
    exact hafter.trans (spends_run os (m.after o) ((account_after m o hm).sound hm) hafter.stands hos hrest)

end

/-! ## Arming again -/

/-- A descriptor is armed: its request was queued under the token of its registration, which it owns. -/
structure Moment.ArmedAs (m : Moment K) (fd : Descriptor) (r : Registration) : Prop where
  registered : m.poller.registrations.get? fd = some r
  live : r.token ≠ ignoreToken
  owner : m.poller.owners.get? r.token = some fd
  queued : request fd r r.token ∈ m.prepared

/-- A registration that is not starved has the next token, if it watches anything. -/
theorem grants_of_not_starved {p : RingPoller} {fd : Descriptor} {r : Registration} {w : World K}
    (hc : r.event.conditions ≠ 0) (hs : (p.arm fd r w).1.isStarved fd = false) :
    p.grants w = true ∧ p.nextToken ≠ ignoreToken := by
  have hstarved : (p.arm fd r w).1.isStarved fd =
      ((if r.event.conditions ≠ 0 ∧ p.grants w = true then p.nextToken else ignoreToken) == ignoreToken) := by
    simp [isStarved, registrations_arm, Table.get?_insert, hc]
  rw [hs] at hstarved
  by_cases hg : p.grants w = true
  · rw [if_pos ⟨hc, hg⟩] at hstarved
    exact ⟨hg, beq_eq_false_iff_ne.1 hstarved.symm⟩
  · rw [if_neg fun h => hg h.2] at hstarved
    cases hstarved

/-- A change with a mode that rings have, to an event with a direction, arms the registration under the next token
unless it was starved of a request. -/
theorem armed_modify {m : Moment K} {fd : Descriptor} {e : Event} {mode : Mode} {old : Registration}
    (hr : m.poller.registrations.get? fd = some old) (hm : mode ≠ .level) (he : e.isAny = true)
    (hcode : (m.answer (.modify fd e mode)).code ≠ Code.busy) :
    (m.after (.modify fd e mode)).ArmedAs fd ⟨e, mode, m.poller.nextToken⟩ := by
  have hconditions : e.conditions ≠ 0 := by
    intro h₀
    rw [Event.conditions_eq_zero.1 h₀] at he
    cases he
  let c := m.poller.cancel old (m.world.noted (.register .modify none fd e mode))
  let a := c.1.arm fd ⟨e, mode, ignoreToken⟩ c.2
  have hmodify := modify_registered hr hm e m.world
  have hstarved : a.1.isStarved fd = false := by
    cases hs : a.1.isStarved fd with
    | false => rfl
    | true => exact absurd ((congrArg (·.1.1) hmodify).trans (if_pos hs)) hcode
  obtain ⟨hgrants, hnext⟩ := grants_of_not_starved hconditions hstarved
  have hledger : (m.after (.modify fd e mode)).ledger = (c.1.ledger c.2).arm fd ⟨e, mode, ignoreToken⟩ := by
    have hafter : m.after (.modify fd e mode) = ⟨(a.1.submit a.2).1.2, (a.1.submit a.2).2⟩ :=
      congrArg (fun q => (⟨q.1.2, q.2⟩ : Moment K)) hmodify
    have hsubmit : (m.after (.modify fd e mode)).ledger = a.1.ledger a.2 := by
      rw [hafter]
      exact ledger_submit a.1 a.2
    rw [hsubmit, ledger_arm, if_pos ⟨hconditions, hgrants⟩]
  have hregistrations : (m.after (.modify fd e mode)).poller.registrations = _ := congrArg Ledger.registrations hledger
  have howners : (m.after (.modify fd e mode)).poller.owners = _ := congrArg Ledger.owners hledger
  have hprepared : (m.after (.modify fd e mode)).prepared = _ := congrArg Ledger.prepared hledger
  have htoken : m.poller.nextToken = c.1.nextToken := (nextToken_cancel _ _ _).symm
  rw [htoken]
  refine ⟨?_, hnext, ?_, ?_⟩
  · rw [hregistrations]
    simp [Ledger.arm, ledger, Table.get?_insert]
  · rw [howners]
    simp [Ledger.arm, ledger, Table.get?_insert]
  · rw [hprepared]
    exact List.mem_append_right _ (List.mem_singleton.2 rfl)

/-! ## Firing once -/

/-- Where an element of a kind is followed by none, there is one at most. -/
theorem countP_le_one {α : Type*} {p : α → Bool} : ∀ {xs : List α},
    xs.Pairwise (fun x y => p x = true → p y = false) → xs.countP p ≤ 1
  | [], _ => Nat.zero_le _
  | x :: xs, h => by
    obtain ⟨hx, hxs⟩ := List.pairwise_cons.1 h
    by_cases hp : p x = true
    · have hnone : xs.countP p = 0 := List.countP_eq_zero.2 fun y hy => Bool.eq_false_iff.1 (hx y hy hp)
      refine Nat.le_of_eq ?_
      rw [List.countP_cons_of_pos hp, hnone]
    · rw [List.countP_cons_of_neg hp]
      exact countP_le_one hxs

/-- A change to a mode that rings do not have is turned down, and leaves everything as it was. -/
theorem Moment.modify_level (m : Moment K) (fd : Descriptor) (e : Event) :
    let m' := m.after (.modify fd e .level)
    (m.answer (.modify fd e .level)).code = Code.invalid ∧ m'.poller = m.poller ∧
      m'.world.kernel = m.world.kernel ∧ m'.world.trace = m.world.trace := by
  have hmodify : m.poller.modify fd e .level m.world =
      ((Code.invalid, m.poller), m.world.noted (.register .modify none fd e .level)) := by
    rw [modify_apply, if_pos rfl]
  intro m'
  have hanswer : (m.answer (.modify fd e .level)).code = (m.poller.modify fd e .level m.world).1.1 := rfl
  have hafter : m' = ⟨(m.poller.modify fd e .level m.world).1.2, (m.poller.modify fd e .level m.world).2⟩ := rfl
  rw [hanswer, hafter, hmodify]
  exact ⟨rfl, rfl, rfl, rfl⟩

/-- **Firing once.** Take any registration of a run that is not for edges, and any operations after it that do not
change or drop it. Let the kernel announce no more completions for requests that complete once; it may add any
completions otherwise, and as often as it likes. The records that these operations deliver are those of their sightings,
and one of them at most is a record of the registration. From then on the registration is there without a request, at
all later sightings and at the end. Adding its descriptor once more is refused. Changing it, in a mode that rings have
and with an event that has a direction, arms it again unless the caller is told that the ring is busy: under the next
token, which is a new one as long as tokens last. Changing it to be level-triggered, which rings do not have, is turned
down, then and at any other moment, and changes nothing. -/
theorem oneshot_once (capacity : Nat) (s : K.State) (before between : List Operation) {fd : Descriptor}
    {r : Registration} (hr : ((Moment.created capacity s).run before).poller.registrations.get? fd = some r)
    (hmode : r.mode ≠ .edge) (hspared : ((Moment.created capacity s).run before).Spares fd between)
    (hsingle : ∀ x ∈ ((Moment.created capacity s).run before).sightings between, x.EndsSingle) :
    let m := (Moment.created capacity s).run before
    let m' := m.run between
    m.delivered between = (m.sightings between).filterMap Sighting.record ∧
      (m.sightings between).countP (·.reports fd) ≤ 1 ∧
      (m.sightings between).Pairwise (fun x y => x.reports fd = true → y.Rests fd r) ∧
      (∀ x ∈ m.sightings between, x.reports fd = true → m'.Rests fd r) ∧
      (∀ e mode, mode ≠ .level → (m'.answer (.add fd e mode)).code = Code.alreadyExists) ∧
      (∀ (n : Moment K) e,
        let n' := n.after (.modify fd e .level)
        (n.answer (.modify fd e .level)).code = Code.invalid ∧ n'.poller = n.poller ∧
          n'.world.kernel = n.world.kernel ∧ n'.world.trace = n.world.trace) ∧
      ∀ e mode, mode ≠ .level → e.isAny = true → (m'.answer (.modify fd e mode)).code ≠ Code.busy →
        ∃ t, (m'.after (.modify fd e mode)).ArmedAs fd ⟨e, mode, t⟩ ∧
          (m'.armed < UInt64.size - 2 → t ∉ armedTokens m'.prepared) := by
  intro m m'
  have hsound : m.ledger.Sound := sound_run capacity s before
  have hspends : Spends fd r m (m.sightings between) m' := spends_run hmode between m hsound (.inl hr) hspared hsingle
  have hfound := hspends.stands.isSome
  obtain ⟨hpairwise, hend⟩ := hspends.fires
  refine ⟨delivered_run between m, countP_le_one ?_, hpairwise, hend, ?_, fun n e => n.modify_level fd e, ?_⟩
  · refine hpairwise.imp_of_mem fun hx hy h hreports => ?_
    have hsoundy := (account_run between m hsound).sound_sighting hsound hy
    exact Sighting.not_reports_of_rests hsoundy (h hreports)
  · intro e mode hm
    show (m'.poller.add fd e mode m'.world).1.1 = _
    rw [add_apply]
    dsimp only
    rw [if_neg hm, if_pos hfound]
  · intro e mode hm he hcode
    obtain ⟨old, hold⟩ := Option.isSome_iff_exists.1 hfound
    refine ⟨m'.poller.nextToken, armed_modify hold hm he hcode, fun hb => ?_⟩
    have hsound' : m'.ledger.Sound := (account_run between m hsound).sound hsound
    exact hsound'.next_not_mem hb

/-- The completion of a request comes three times, in two waits. It is delivered once, and then a change arms the
registration again. -/
theorem oneshot_once_repeated :
    let script : Script Service Entry :=
      [(.ringWait, { completions := [⟨2, 1, false⟩, ⟨2, 1, false⟩] }), (.ringWait, { completions := [⟨2, 4, false⟩] })]
    let before := [.add 5 (Event.all 7) .oneshot]
    let between := [.wait Buffer.empty none, .add 5 (Event.all 8) .oneshot, .modify 5 (Event.all 8) .level,
      .wait Buffer.empty (some 0)]
    let m : Moment Replay.kernel := (Moment.created 8 ({ script } : Replay)).run before
    let o := .modify 5 (Event.all 9) .edgeOneshot
    m.poller.registrations.get? 5 = some ⟨Event.all 7, .oneshot, 2⟩ ∧ m.Spares 5 between ∧
      (∀ x ∈ m.sightings between, x.EndsSingle) ∧ (m.sightings between).length = 3 ∧
      m.delivered between = [.poll ⟨1, 7⟩] ∧ (m.sightings between).countP (·.reports 5) ≤ 1 ∧
      ((m.run between).answer o).code ≠ Code.busy ∧
      ∃ t, ((m.run between).after o).ArmedAs 5 ⟨Event.all 9, .edgeOneshot, t⟩ := by
  intro script before between m o
  have hr : m.poller.registrations.get? 5 = some ⟨Event.all 7, .oneshot, 2⟩ := by decide +kernel
  have hspared : m.Spares 5 between := by
    intro earlier o later he ho
    have hmem : o ∈ between := he ▸ List.mem_append_right _ List.mem_cons_self
    simp only [between, List.mem_cons, List.not_mem_nil, or_false] at hmem
    rcases hmem with rfl | rfl | rfl | rfl
    · exact ho
    · exact ho
    · exact ho.2.1 rfl
    · exact ho
  have hsingle : ∀ x ∈ m.sightings between, x.EndsSingle := by
    have hmore : (m.sightings between).map (·.completion.more) = [false, false, false] := by decide +kernel
    intro x hx _ _ _
    have hmem : x.completion.more ∈ (m.sightings between).map (·.completion.more) := List.mem_map_of_mem hx
    rw [hmore] at hmem
    simpa using hmem
  have hcode : ((m.run between).answer o).code ≠ Code.busy := by decide +kernel
  obtain ⟨-, honce, -, -, -, -, harmed⟩ :=
    @oneshot_once Replay.kernel 8 { script } before between 5 _ hr (by decide) hspared hsingle
  refine ⟨hr, hspared, hsingle, by decide +kernel, by decide +kernel, honce, hcode, ?_⟩
  obtain ⟨t, ht, -⟩ := harmed (Event.all 9) .edgeOneshot (by decide) rfl hcode
  exact ⟨t, ht⟩

/-- After a registration has fired, changing it to be level-triggered is turned down with another error than that the
ring is busy. The registration stays as it is, without a request, although the event has directions. -/
theorem level_not_armed :
    let script : Script Service Entry := [(.ringWait, { completions := [⟨2, 1, false⟩] })]
    let m₀ : Moment Replay.kernel := Moment.created 8 ({ script } : Replay)
    let before := [.add 5 (Event.all 7) .oneshot, .wait Buffer.empty none]
    let m := m₀.run before
    let o := .modify 5 (Event.all 8) .level
    m₀.delivered before = [.poll ⟨1, 7⟩] ∧ (Event.all 8).isAny = true ∧ (m.answer o).code = Code.invalid ∧
      Code.invalid ≠ Code.busy ∧
      (m.after o).poller.registrations.get? 5 = some ⟨Event.all 7, .oneshot, ignoreToken⟩ ∧
      (m.after o).prepared = m.prepared := by
  decide +kernel

end Vigil.RingPoller
