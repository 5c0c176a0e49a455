import Vigil.Proofs.RingPoller.Account
import Vigil.Replay

/-!
# The requests of a polled ring

All requests that were ever queued mirror the registrations (`Moment.Mirrored`): as long as tokens last, a
registration that has a request has one only, and it asks for what the registration says. A request is canceled after
it was queued, once, and not after its last completion (`targets_after_ends`). If there always was room, no request
was left behind (`canceled_or_finished`).
-/

namespace Vigil.RingPoller

variable {K : Kernel}

/-! ## Mirrors -/

/-- The requests mirror the registrations. -/
structure Moment.Mirrored (m : Moment K) : Prop where
  /-- A registration has one request under its token, for its descriptor and the conditions of its event. -/
  request : ∀ fd r, m.poller.registrations.get? fd = some r → r.token ≠ ignoreToken →
    m.prepared.filter (·.pollToken? == some r.token) =
      [if r.mode = .edge then .pollMultishot fd r.event.conditions r.token
        else .pollAdd fd r.event.conditions r.token]
  /-- What cancels a request comes after it. -/
  orderly : Ledger.Orderly m.prepared
  /-- No request is canceled twice. -/
  once : (targets m.prepared).Nodup

theorem Moment.mirrored {m : Moment K} (h : m.ledger.Exact) (hb : m.armed ≤ Ledger.tokenCount) : m.Mirrored where
  request fd r hr h₀ := filter_pollToken? (pollToken?_request fd r r.token) (h.nodup hb) (h.queued fd r hr h₀)
  orderly := h.orderly
  once := h.once

/-! ## Last completions -/

/-- The last completion of a request leaves its token without an owner. -/
theorem owners_consume {p : RingPoller} {c : Completion} (h₀ : c.token ≠ ignoreToken) (h₁ : c.token ≠ wakeToken)
    (hmore : c.more = false)
    (hfound : ∀ fd, p.owners.get? c.token = some fd → ∃ r, p.registrations.get? fd = some r) :
    (p.consume c).poller.owners.get? c.token = none := by
  unfold consume
  rw [if_neg h₀, if_neg h₁]
  cases ho : p.owners.get? c.token with
  | none => exact ho
  | some fd =>
    obtain ⟨r, hr⟩ := hfound fd ho
    have hdisarm : (p.disarm c.token fd r).owners.get? c.token = none := by
      simp [disarm, store, Table.get?_erase]
    dsimp only
    rw [hr]
    dsimp only
    rw [hmore]
    split <;> exact hdisarm

/-- The token of a request is gone once its last completion is consumed. -/
theorem Sighting.Ends.gone {x : Sighting K} {t : Token} (hx : x.Ends t) (h : x.ledger.Exact)
    (hb : x.armed ≤ Ledger.tokenCount) : x.consumed.ledger.Gone t := by
  obtain ⟨rfl, hmore, ht⟩ := hx
  have h₀ := h.ne_ignoreToken hb ht
  have h₁ := h.ne_wakeToken hb ht
  have hfound : ∀ fd, x.poller.owners.get? x.completion.token = some fd →
      ∃ r, x.poller.registrations.get? fd = some r := fun fd ho => by
    obtain ⟨r, hr, -⟩ := h.owner _ fd h₀ ho
    exact ⟨r, hr⟩
  rw [← prepared_consumed x] at ht
  exact ⟨ht, owners_consume h₀ h₁ hmore hfound⟩

/-- A request is not canceled any more once its last completion was consumed. -/
theorem targets_after_ends {m : Moment K} {os : List Operation} (hm : m.ledger.Exact)
    (hb : (m.run os).armed ≤ Ledger.tokenCount) {x : Sighting K} (hx : x ∈ m.sightings os) {t : Token}
    (ht : x.Ends t) : ∃ later, (m.run os).prepared = x.prepared ++ later ∧ t ∉ targets later := by
  obtain ⟨he, he', hle⟩ := exact_sighting hm hb hx
  obtain ⟨ds, hp⟩ := (account_run os m hm.toSound).after x hx
  obtain ⟨-, later, hlater, hnot⟩ := hp.gone hb he' (ht.gone he (Nat.le_trans hle hb))
  refine ⟨later, ?_, hnot⟩
  rw [← prepared_consumed x]
  exact hlater

/-! ## Nothing is left behind -/

/-- If there was room whenever room was asked for, then each request is the one of a registration, or was canceled
later, or its last completion was consumed. -/
theorem canceled_or_finished {m : Moment K} {os : List Operation} (hm : m.ledger = {})
    (hb : (m.run os).armed ≤ Ledger.tokenCount) (hroom : ∀ a ∈ m.asks os, a.grants = true) {i : Nat} {s : Submission}
    {t : Token} (hi : (m.run os).prepared[i]? = some s) (hs : s.pollToken? = some t) :
    (∃ fd r, (m.run os).poller.registrations.get? fd = some r ∧ r.token = t) ∨
      (∃ j, i < j ∧ (m.run os).prepared[j]? = some (.pollRemove t ignoreToken)) ∨ ∃ x ∈ m.sightings os, x.Ends t := by
  have hempty : m.ledger.Exact := hm ▸ Ledger.exact_empty
  have he := exact_run hempty hb
  have ht : t ∈ armedTokens (m.run os).prepared := mem_armedTokens.2 ⟨s, List.mem_of_getElem? hi, hs⟩
  obtain ⟨ds, hp, hfinished, habandoned⟩ := (account_run os m hempty.toSound).path
  rcases hp.covered ht with hg | ⟨fd, ho⟩ | hc | hf | ha
  · -- nothing was queued before the run
    rw [hm] at hg
    cases hg.1
  · obtain ⟨r, hr, hrt⟩ := he.owner t fd (he.ne_ignoreToken hb ht) ho
    exact .inl ⟨fd, r, hr, hrt⟩
  · obtain ⟨c, hc, hct⟩ := mem_targets.1 hc
    obtain ⟨j, hj⟩ := List.mem_iff_getElem?.1 hc
    obtain ⟨u, rfl⟩ := eq_pollRemove hct
    obtain ⟨rfl, i', hlt, s', hi', hs'⟩ := he.orderly j t u hj
    have heq : i = i' := index_unique (he.nodup hb) hi hi' hs hs'
    exact .inr (.inl ⟨j, heq ▸ hlt, hj⟩)
  · exact .inr (.inr (hfinished t hf))
  · obtain ⟨a, hmem, hgrants⟩ := habandoned t ha
    rw [hroom a hmem] at hgrants
    cases hgrants

/-- **The requests.** In every run, a registration that has a request once queued it, and what is canceled was queued
before. Tokens have 64 bits, and as long as no more requests were armed than there are tokens, the requests mirror the
registrations, between operations as well as before and after each completion that is consumed; no request is canceled
after its last completion; and if there always was room, each request is the one of a registration, or was canceled
later, or its last completion was consumed. -/
theorem requests_mirror (capacity : Nat) (s : K.State) (os : List Operation) :
    let m₀ := Moment.created capacity s
    let m := m₀.run os
    (∀ fd r, m.poller.registrations.get? fd = some r → r.token ≠ ignoreToken →
      (if r.mode = .edge then .pollMultishot fd r.event.conditions r.token
        else .pollAdd fd r.event.conditions r.token) ∈ m.prepared) ∧
      Ledger.Orderly m.prepared ∧
      (m.armed ≤ UInt64.size - 2 →
        m.Mirrored ∧
        (∀ x ∈ m₀.sightings os, x.Mirrored ∧ x.consumed.Mirrored ∧
          ∀ t, x.Ends t → ∃ later, m.prepared = x.prepared ++ later ∧ t ∉ targets later) ∧
        ((∀ a ∈ m₀.asks os, a.grants = true) →
          ∀ (i : Nat) request t, m.prepared[i]? = some request → request.pollToken? = some t →
            (∃ fd r, m.poller.registrations.get? fd = some r ∧ r.token = t) ∨
              (∃ j, i < j ∧ m.prepared[j]? = some (.pollRemove t ignoreToken)) ∨
              ∃ x ∈ m₀.sightings os, x.Ends t)) := by
  intro m₀ m
  have hexact : m₀.ledger.Exact := exact_created capacity s
  have hsound : m.ledger.Sound := (account_run os m₀ hexact.toSound).sound hexact.toSound
  refine ⟨hsound.queued, hsound.orderly, fun hb => ⟨Moment.mirrored (exact_run hexact hb) hb, fun x hx => ?_, ?_⟩⟩
  · obtain ⟨he, he', hle⟩ := exact_sighting hexact hb hx
    have hle' : x.armed ≤ Ledger.tokenCount := Nat.le_trans hle hb
    exact ⟨Moment.mirrored he hle', Moment.mirrored he' (armed_consumed x ▸ hle'), fun t ht =>
      targets_after_ends hexact hb hx ht⟩
  · intro hroom i request t hi ht
    exact canceled_or_finished (ledger_created capacity s) hb hroom hi ht

/-- A registration that was changed, and one that fired once, on a ring with room for a single request. -/
theorem requests_mirror_flushed :
    let script : Script Service Entry := [(.ringWait, { completions := [⟨3, 1, true⟩, ⟨4, 1, false⟩] })]
    let os := [.add 5 (Event.all 7) .oneshot, .modify 5 (Event.all 8) .edge, .add 6 (Event.all 9) .oneshot,
      .wait Buffer.empty none]
    let m₀ : Moment Replay.kernel := Moment.created 1 ({ script } : Replay)
    let m := m₀.run os
    m.armed = 3 ∧ (m₀.asks os).length = 4 ∧ m.Mirrored ∧
      ((∃ fd r, m.poller.registrations.get? fd = some r ∧ r.token = 4) ∨
        (∃ j, 3 < j ∧ m.prepared[j]? = some (.pollRemove 4 ignoreToken)) ∨ ∃ x ∈ m₀.sightings os, x.Ends 4) := by
  intro script os
  have hlast := (@requests_mirror Replay.kernel 1 { script } os).2.2 (by decide +kernel)
  refine ⟨by decide +kernel, by decide +kernel, hlast.1, ?_⟩
  exact hlast.2.2 (by decide +kernel) 3 (.pollAdd 6 (Event.all 9).conditions 4) 4 (by decide +kernel) rfl

end Vigil.RingPoller
