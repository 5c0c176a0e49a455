import Vigil.Proofs.RingPoller.Delivery
import Vigil.Proofs.RingPoller.Interest

/-!
# Stale completions

* **A token that was revoked gives no records** (`record_of_revoked`): changing or dropping a registration leaves the
  tokens that were armed for it before without owners (`gone_of_revokes`), and such tokens get none again as long as
  tokens last.
* **A record carries the latest key** (`record_latest`): the one of the operation that last replaced the event of the
  descriptor that the token was armed for.
-/

namespace Vigil.RingPoller

variable {K : Kernel}

/-! ## Tokens of descriptors -/

/-- A request that watches the descriptor was queued under the token. -/
def ArmedFor (ss : List Submission) (fd : Descriptor) (t : Token) : Prop :=
  ∃ mask, .pollAdd fd mask t ∈ ss ∨ .pollMultishot fd mask t ∈ ss

theorem ArmedFor.mem {ss : List Submission} {fd : Descriptor} {t : Token} (h : ArmedFor ss fd t) :
    t ∈ armedTokens ss := by
  obtain ⟨mask, h | h⟩ := h
  · exact mem_armedTokens.2 ⟨_, h, rfl⟩
  · exact mem_armedTokens.2 ⟨_, h, rfl⟩

theorem ArmedFor.mono {ss ss' : List Submission} {fd : Descriptor} {t : Token} (h : ArmedFor ss fd t)
    (hsub : ss <+: ss') : ArmedFor ss' fd t := by
  obtain ⟨mask, h | h⟩ := h
  · exact ⟨mask, .inl (hsub.subset h)⟩
  · exact ⟨mask, .inr (hsub.subset h)⟩

theorem armedFor_of_mem {ss : List Submission} {fd : Descriptor} {r : Registration} {t : Token}
    (h : request fd r t ∈ ss) : ArmedFor ss fd t := by
  unfold request at h
  split at h
  · exact ⟨_, .inr h⟩
  · exact ⟨_, .inl h⟩

/-- A token is armed for one descriptor only. -/
theorem ArmedFor.unique {ss : List Submission} (hn : (armedTokens ss).Nodup) {fd fd' : Descriptor} {t : Token}
    (h : ArmedFor ss fd t) (h' : ArmedFor ss fd' t) : fd = fd' := by
  obtain ⟨mask, h | h⟩ := h
  · obtain ⟨mask', h' | h'⟩ := h'
    · cases request_unique hn h h' rfl rfl
      rfl
    · cases request_unique hn h h' rfl rfl
  · obtain ⟨mask', h' | h'⟩ := h'
    · cases request_unique hn h h' rfl rfl
    · cases request_unique hn h h' rfl rfl
      rfl

/-! ## Revoked tokens -/

/-- The operation ends what the descriptor was armed with: a change that passes its checks, or a removal. -/
def Moment.Revokes (m : Moment K) (fd : Descriptor) : Operation → Prop
  | .modify fd' _ mode => fd' = fd ∧ mode ≠ .level ∧ (m.poller.registrations.get? fd).isSome = true
  | .remove fd' => fd' = fd
  | _ => False

/-- After a change that passes its checks, the registration has no request, or one under the next token. -/
theorem token_modify {p : RingPoller} {w : World K} {fd : Descriptor} {e : Event} {mode : Mode} {r : Registration}
    (hm : mode ≠ .level) (hfound : (p.registrations.get? fd).isSome = true)
    (hr : (p.modify fd e mode w).1.2.registrations.get? fd = some r) :
    r.token = ignoreToken ∨ r.token = p.nextToken := by
  obtain ⟨old, hold⟩ := Option.isSome_iff_exists.1 hfound
  let c := p.cancel old (w.noted (.register .modify none fd e mode))
  let a := c.1.arm fd ⟨e, mode, ignoreToken⟩ c.2
  have hnext : (c.1.ledger c.2).nextToken = p.nextToken :=
    nextToken_cancel p old (w.noted (.register .modify none fd e mode))
  have hmodify : (p.modify fd e mode w).1.2.ledger (p.modify fd e mode w).2 = a.1.ledger a.2 := by
    rw [modify_apply, hold]
    dsimp only
    rw [if_neg hm]
    exact ledger_submit _ _
  have hr' : (a.1.ledger a.2).registrations.get? fd = some r := by
    rw [← hmodify]
    exact hr
  rw [ledger_arm] at hr'
  split at hr'
  · simp only [Ledger.arm, Table.get?_insert, if_true, Option.some.injEq] at hr'
    rw [← hr']
    exact .inr hnext
  · simp only [Ledger.rest, Table.get?_insert, if_true, Option.some.injEq] at hr'
    rw [← hr']
    exact .inl rfl

/-- Once an operation revoked them, the tokens that were armed for a descriptor have no owners. -/
theorem gone_of_revokes {m : Moment K} {o : Operation} (hm : m.ledger.Exact)
    (hb : (m.after o).armed < Ledger.tokenCount) {fd : Descriptor} {t : Token} (ho : m.Revokes fd o)
    (ht : ArmedFor m.prepared fd t) : (m.after o).ledger.Gone t := by
  obtain ⟨ds, hp, -⟩ := (account_after m o hm.toSound).path
  have he := exact_after hm (Nat.le_of_lt hb)
  have hmono : ArmedFor (m.after o).prepared fd t := ht.mono hp.prefix
  refine ⟨hmono.mem, ?_⟩
  cases hown : (m.after o).ledger.owners.get? t with
  | none => rfl
  | some fd' =>
    exfalso
    have h₀ := he.ne_ignoreToken (Nat.le_of_lt hb) hmono.mem
    obtain ⟨r, hr, rfl⟩ := he.owner t fd' h₀ hown
    -- the owner is the descriptor that the token was armed for
    obtain rfl := hmono.unique (he.nodup (Nat.le_of_lt hb)) (armedFor_of_mem (he.queued fd' r hr h₀))
    cases o with
    | modify fd' e mode =>
      obtain ⟨rfl, hmode, hfound⟩ := ho
      rcases token_modify hmode hfound hr with htoken | htoken
      · exact h₀ htoken
      · rw [htoken] at ht
        exact hm.next_not_mem (Nat.lt_of_le_of_lt hp.armed_le hb) ht.mem
    | remove fd' =>
      obtain rfl : fd' = fd := ho
      have hw : (m.after (.remove fd')).poller.watched fd' = some r.event :=
        congrArg (Option.map Registration.event) hr
      have hnone : (m.after (.remove fd')).poller.watched fd' = _ := watched_remove m.poller m.world fd' fd'
      rw [hw, if_pos rfl] at hnone
      cases hnone
    | add _ _ _ => exact ho
    | wake => exact ho
    | wait _ _ => exact ho

/-- A token without an owner gives no record. -/
theorem record_of_gone {x : Sighting K} (hx : x.ledger.Gone x.completion.token) (he : x.ledger.Exact)
    (hb : x.armed ≤ Ledger.tokenCount) : x.record = none := by
  have h₁ := he.ne_wakeToken hb hx.1
  have ho : x.poller.owners.get? x.completion.token = none := hx.2
  unfold Sighting.record
  rw [if_neg (he.ne_ignoreToken hb hx.1), if_neg h₁, ho]
  rfl

/-- No completion under a token that was revoked becomes a record in the rest of a run. -/
theorem record_of_revoked {m : Moment K} {o : Operation} {os : List Operation} (hm : m.ledger.Exact)
    (hb : ((m.after o).run os).armed < Ledger.tokenCount) {fd : Descriptor} {t : Token} (ho : m.Revokes fd o)
    (ht : ArmedFor m.prepared fd t) {x : Sighting K} (hx : x ∈ (m.after o).sightings os)
    (hxt : x.completion.token = t) : x.record = none := by
  have hsound := (account_after m o hm.toSound).sound hm.toSound
  have hlt := Nat.lt_of_le_of_lt (armed_le_run hsound os) hb
  have he := exact_after hm (Nat.le_of_lt hlt)
  obtain ⟨hxe, -, hle⟩ := exact_sighting he (Nat.le_of_lt hb) hx
  have hxb : x.armed ≤ Ledger.tokenCount := Nat.le_trans hle (Nat.le_of_lt hb)
  obtain ⟨es, hq⟩ := (account_run os (m.after o) hsound).before x hx
  obtain ⟨hgone, -⟩ := hq.gone hxb he (gone_of_revokes hm hlt ho ht)
  rw [← hxt] at hgone
  exact record_of_gone hgone hxe hxb

/-! ## Keys of records -/

/-- A record that is no wake-up carries the key of a registration that owns the completion. -/
theorem record_cases {x : Sighting K} {r : Record} (h : x.record = some r) (h₁ : x.completion.token ≠ wakeToken) :
    ∃ fd reg mask, x.completion.token ≠ ignoreToken ∧ x.poller.owners.get? x.completion.token = some fd ∧
      x.poller.registrations.get? fd = some reg ∧ r = .poll ⟨mask, reg.event.key⟩ := by
  unfold Sighting.record at h
  by_cases h₀ : x.completion.token = ignoreToken
  · rw [if_pos h₀] at h
    cases h
  · rw [if_neg h₀, if_neg h₁] at h
    cases ho : x.poller.owners.get? x.completion.token with
    | none =>
      rw [ho] at h
      cases h
    | some fd =>
      cases hr : x.poller.registrations.get? fd with
      | none =>
        simp [ho, hr] at h
      | some reg =>
        simp only [ho, hr, Option.bind_eq_bind, Option.bind_some] at h
        split at h
        · cases h
        · cases h
          exact ⟨fd, reg, _, h₀, rfl, hr, rfl⟩

/-- The events are the same at all sightings of an operation. -/
theorem watched_sighting {m : Moment K} {o : Operation} {x : Sighting K} (hx : x ∈ (m.walksOf o).flatten)
    (fd : Descriptor) : x.poller.watched fd = m.poller.watched fd := by
  cases o with
  | wait b timeout =>
    exact ((lasting_watched fd (m.poller.watched fd)).stretch.wait m.poller b timeout m.world rfl).1 x hx
  | _ => cases hx

/-- What is registered at a sighting was registered last before its operation. -/
theorem latest_sighting {m₀ : Moment K} {before : List Operation} {o : Operation} (h₀ : m₀.ledger = {})
    {x : Sighting K} (hx : x ∈ ((m₀.run before).walksOf o).flatten) {fd : Descriptor} {r : Registration}
    (hr : x.poller.registrations.get? fd = some r) : m₀.latest fd before = some r.event := by
  have hwatched : x.poller.watched fd = some r.event := congrArg (Option.map Registration.event) hr
  rw [watched_sighting hx fd] at hwatched
  have hnone : m₀.poller.watched fd = none := by
    have hempty : m₀.poller.registrations = {} := congrArg Ledger.registrations h₀
    rw [watched, hempty]
    rfl
  have hlatest := watched_run before m₀ hwatched
  rwa [hnone, Option.or_none] at hlatest

/-- A record that is no wake-up carries the key that was registered last for the descriptor that its token was armed
for. -/
theorem record_latest {m₀ : Moment K} {before : List Operation} {o : Operation} (h₀ : m₀.ledger = {})
    {x : Sighting K} (hx : x ∈ ((m₀.run before).walksOf o).flatten) (he : x.ledger.Exact)
    (hb : x.armed ≤ Ledger.tokenCount) {r : Record} (hr : x.record = some r) (h₁ : x.completion.token ≠ wakeToken) :
    ∃ fd e mask, (∀ fd', ArmedFor x.prepared fd' x.completion.token ↔ fd' = fd) ∧ m₀.latest fd before = some e ∧
      r = .poll ⟨mask, e.key⟩ := by
  obtain ⟨fd, reg, mask, hx₀, hown, hreg, rfl⟩ := record_cases hr h₁
  refine ⟨fd, reg.event, mask, fun fd' => ?_, ?_, rfl⟩
  · obtain ⟨reg', hreg', htoken⟩ := he.owner _ fd hx₀ hown
    have harmed : ArmedFor x.prepared fd reg'.token := armedFor_of_mem (he.queued fd reg' hreg' (htoken ▸ hx₀))
    rw [htoken] at harmed
    constructor
    · intro h
      exact h.unique (he.nodup hb) harmed
    · rintro rfl
      exact harmed
  · exact latest_sighting h₀ hx hreg

/-- **Staleness.** Take any operation of a run in which tokens last. The records that it leaves are those of its
sightings. If it revokes what was armed for a descriptor, then no completion under a token that was armed for the
descriptor until then becomes a record in the rest of the run. And each record of its own that is no wake-up carries
the key that the latest operation before it registered for the one descriptor that the record's token was armed for.
-/
theorem stale_dropped (capacity : Nat) (s : K.State) (os : List Operation)
    (hb : ((Moment.created capacity s).run os).armed < UInt64.size - 2) :
    let m₀ := Moment.created capacity s
    ∀ before o later, os = before ++ o :: later →
      let m := m₀.run before
      (m.answer o).records = (m.walksOf o).flatten.filterMap Sighting.record ∧
        (∀ fd t, m.Revokes fd o → ArmedFor m.prepared fd t →
          ∀ x ∈ (m.after o).sightings later, x.completion.token = t → x.record = none) ∧
        ∀ x ∈ (m.walksOf o).flatten, ∀ r, x.record = some r → x.completion.token ≠ wakeToken →
          ∃ fd e mask, (∀ fd', ArmedFor x.prepared fd' x.completion.token ↔ fd' = fd) ∧
            m₀.latest fd before = some e ∧ r = .poll ⟨mask, e.key⟩ := by
  rintro m₀ before o later rfl m
  have h₀ : m₀.ledger.Exact := exact_created capacity s
  have hrun : m₀.run (before ++ o :: later) = (m.after o).run later := List.foldl_append
  have hsound : m.ledger.Sound := (account_run before m₀ h₀.toSound).sound h₀.toSound
  rw [hrun] at hb
  have hle : (m.run (o :: later)).armed ≤ Ledger.tokenCount := Nat.le_of_lt hb
  have hexact : m.ledger.Exact := exact_run h₀ (Nat.le_trans (armed_le_run hsound (o :: later)) hle)
  refine ⟨records_answer m o, ?_, ?_⟩
  · intro fd t ho ht x hx hxt
    exact record_of_revoked hexact hb ho ht hx hxt
  · intro x hx r hr h₁
    have hmem : x ∈ m.sightings (o :: later) := by
      rw [Moment.sightings, Moment.walks, List.flatten_append]
      exact List.mem_append_left _ hx
    obtain ⟨hxe, -, hxle⟩ := exact_sighting hexact hle hmem
    exact record_latest (ledger_created capacity s) hx hxe (Nat.le_trans hxle hle) hr h₁

/-- A registration that was changed, dropped and added again: only the completion of its last request is delivered,
under the last key. -/
theorem stale_dropped_readded :
    let script : Script Service Entry :=
      [(.ringWait, { completions := [⟨2, 1, true⟩, ⟨3, 1, false⟩, ⟨4, 4, false⟩] })]
    let before := [.add 5 (Event.all 7) .edge]
    let o := .modify 5 (Event.all 8) .oneshot
    let later := [.remove 5, .add 5 (Event.all 9) .oneshot, .wait Buffer.empty none]
    let m₀ : Moment Replay.kernel := Moment.created 1 ({ script } : Replay)
    m₀.delivered (before ++ o :: later) = [.poll ⟨4, 9⟩] ∧
      (((m₀.run before).after o).sightings later).length = 3 ∧
      ∀ x ∈ ((m₀.run before).after o).sightings later, x.completion.token = 2 → x.record = none := by
  intro script before o later
  have hb : ((@Moment.created Replay.kernel 1 { script }).run (before ++ o :: later)).armed < UInt64.size - 2 := by
    decide +kernel
  have hstale := (@stale_dropped Replay.kernel 1 { script } _ hb before o later rfl).2.1
  refine ⟨by decide +kernel, by decide +kernel, hstale 5 2 ⟨rfl, by decide, by decide +kernel⟩ ?_⟩
  exact ⟨(Event.all 7).conditions, .inr (by decide +kernel)⟩

end Vigil.RingPoller
