import Vigil.Proofs.RingPoller.Account
import Vigil.Replay

/-!
# The two tables of a polled ring

At every moment of a run in which tokens last, the registrations that have a request and the owners of tokens are the
same pairs, read in two ways, and each token was dealt out once (`Moment.Coherent`, `tables_inverse`). So the
registration of a completion that is looked at is always there.
-/

namespace Vigil.RingPoller

variable {K : Kernel}

/-- The tables agree with each other, and with the tokens that were dealt out. -/
structure Moment.Coherent (m : Moment K) : Prop where
  /-- The owners are the registrations that have a request, found by its token. -/
  inverse : ∀ t fd, m.poller.owners.get? t = some fd ↔
    ∃ r, m.poller.registrations.get? fd = some r ∧ r.token = t ∧ t ≠ ignoreToken
  /-- The token of a registration was dealt out. -/
  bounds : ∀ fd r, m.poller.registrations.get? fd = some r → r.token ≠ ignoreToken →
    firstToken ≤ r.token ∧ r.token < m.poller.nextToken
  /-- No token was dealt out twice. -/
  once : (armedTokens m.prepared).Nodup
  ignoreToken_not_mem : ignoreToken ∉ armedTokens m.prepared
  wakeToken_not_mem : wakeToken ∉ armedTokens m.prepared

theorem coherent_of_exact {m : Moment K} (h : m.ledger.Exact) (hb : m.armed < Ledger.tokenCount) : m.Coherent where
  inverse t fd := by
    constructor
    · intro ho
      have h₀ := h.ne_ignoreToken (Nat.le_of_lt hb) (h.dealt t fd ho)
      obtain ⟨r, hr, ht⟩ := h.owner t fd h₀ ho
      exact ⟨r, hr, ht, h₀⟩
    · rintro ⟨r, hr, rfl, h₀⟩
      exact h.owned fd r hr h₀
  bounds fd r hr h₀ := by
    obtain ⟨h₁, h₂⟩ := (h.mem_iff (Nat.le_of_lt hb)).1 (h.mem hr h₀)
    have hnext : m.poller.nextToken.toNat = m.armed + 2 := h.toNat_next hb
    exact ⟨UInt64.le_iff_toNat_le.2 h₁, UInt64.lt_iff_toNat_lt.2 (hnext ▸ h₂)⟩
  once := h.nodup (Nat.le_of_lt hb)
  ignoreToken_not_mem ht := h.ne_ignoreToken (Nat.le_of_lt hb) ht rfl
  wakeToken_not_mem ht := h.ne_wakeToken (Nat.le_of_lt hb) ht rfl

/-- **The tables.** As long as tokens last, the two tables are inverse to each other, between operations as well as
before and after each completion that is consumed; the tokens of registrations were dealt out, each to one request
only, and none of them has a meaning of its own. So the registration of an owner is always found. -/
theorem tables_inverse (capacity : Nat) (s : K.State) (os : List Operation)
    (hb : ((Moment.created capacity s).run os).armed < UInt64.size - 2) :
    let m₀ := Moment.created capacity s
    (m₀.run os).Coherent ∧
      ∀ x ∈ m₀.sightings os, x.Coherent ∧ x.consumed.Coherent ∧
        ∀ fd, x.poller.owners.get? x.completion.token = some fd → ∃ r, x.poller.registrations.get? fd = some r := by
  intro m₀
  have hexact : m₀.ledger.Exact := exact_created capacity s
  refine ⟨coherent_of_exact (exact_run hexact (Nat.le_of_lt hb)) hb, fun x hx => ?_⟩
  obtain ⟨he, he', hle⟩ := exact_sighting hexact (Nat.le_of_lt hb) hx
  have hlt : x.armed < Ledger.tokenCount := Nat.lt_of_le_of_lt hle hb
  have hcoherent : x.Coherent := coherent_of_exact he hlt
  refine ⟨hcoherent, coherent_of_exact he' (armed_consumed x ▸ hlt), fun fd ho => ?_⟩
  obtain ⟨r, hr, -⟩ := (hcoherent.inverse _ fd).1 ho
  exact ⟨r, hr⟩

/-- An edge registration whose request ended early, beside one that fired once: both tables hold the new request only.
-/
theorem tables_inverse_rearmed :
    let script : Script Service Entry :=
      [(.ringWait, { completions := [⟨2, 1, false⟩, ⟨3, 4, false⟩, ⟨2, 1, false⟩] })]
    let os := [.add 5 (Event.all 7) .edge, .add 6 (Event.all 8) .oneshot, .wait Buffer.empty none]
    let m₀ : Moment Replay.kernel := Moment.created 1 ({ script } : Replay)
    (m₀.run os).armed = 3 ∧ (m₀.run os).poller.owners.get? 4 = some 5 ∧ (m₀.sightings os).length = 3 ∧
      (m₀.run os).Coherent :=
  ⟨by decide +kernel, by decide +kernel, by decide +kernel,
    (@tables_inverse Replay.kernel 1 _ _ (by decide +kernel)).1⟩

end Vigil.RingPoller
