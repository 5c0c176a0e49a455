import Vigil.Proofs.RingPoller.Ledger.Basic

/-!
# Ledgers while tokens last

* **As long as tokens last, a ledger is exact** (`Step.exact`): its two tables are inverse to each other, and no
  request is canceled twice.
* **What is over stays over** (`Path.gone`): a token that has lost its owner gets none again, and is not canceled.
* **Nothing is lost** (`Path.covered`): a token without an owner was canceled, finished or abandoned.
-/

namespace Vigil.RingPoller.Ledger

/-! ## Tokens -/

/-- A request takes the next token, all others take none. -/
theorem Step.armed_le {l l' : Ledger} {d : Deed} (h : Step l d l') : l.armed ≤ l'.armed := by
  cases h with
  | retire fate _ _ => exact Nat.le_of_eq (armed_retire _ _ _ _).symm
  | forget _ _ => exact Nat.le_refl _
  | rest _ _ => exact Nat.le_refl _
  | arm r _ => rw [armed_arm]; exact Nat.le_succ _
  | wake => exact Nat.le_of_eq (armed_wake _).symm

theorem Path.armed_le {l l' : Ledger} {ds : List Deed} (h : Path l ds l') : l.armed ≤ l'.armed := by
  induction h with
  | nil _ => exact Nat.le_refl _
  | cons hs _ ih => exact Nat.le_trans hs.armed_le ih

/-- The number of tokens that a request can be armed under. -/
def tokenCount : Nat := UInt64.size - 2

/-- Tokens do not come round. -/
theorem toNat_token {i : Nat} (h : i < tokenCount) : (UInt64.ofNat (i + 2)).toNat = i + 2 := by
  unfold tokenCount at h
  exact UInt64.toNat_ofNat_of_lt' (by omega)

section Fresh

variable {l : Ledger}

theorem Sound.mem_iff (h : l.Sound) (hl : l.armed ≤ tokenCount) {t : Token} :
    t ∈ armedTokens l.prepared ↔ 2 ≤ t.toNat ∧ t.toNat < l.armed + 2 := by
  rw [h.tokens, List.mem_map]
  constructor
  · rintro ⟨i, hi, rfl⟩
    have hi := List.mem_range.1 hi
    rw [toNat_token (Nat.lt_of_lt_of_le hi hl)]
    omega
  · rintro ⟨h₁, h₂⟩
    exact ⟨t.toNat - 2, List.mem_range.2 (by omega), by rw [Nat.sub_add_cancel h₁, UInt64.ofNat_toNat]⟩

theorem Sound.nodup (h : l.Sound) (hl : l.armed ≤ tokenCount) : (armedTokens l.prepared).Nodup := by
  rw [h.tokens]
  refine List.pairwise_map.2 (List.nodup_range.imp_of_mem ?_)
  intro i j hi hj hne he
  have hi := Nat.lt_of_lt_of_le (List.mem_range.1 hi) hl
  have hj := Nat.lt_of_lt_of_le (List.mem_range.1 hj) hl
  have hsame := congrArg UInt64.toNat he
  rw [toNat_token hi, toNat_token hj] at hsame
  omega

theorem Sound.toNat_next (h : l.Sound) (hl : l.armed < tokenCount) : l.nextToken.toNat = l.armed + 2 := by
  rw [h.next, toNat_token hl]

/-- The next token is not the one that means nothing. -/
theorem Sound.next_ne_ignoreToken (h : l.Sound) (hl : l.armed < tokenCount) : l.nextToken ≠ ignoreToken := by
  intro hzero
  have hnat := h.toNat_next hl
  rw [hzero] at hnat
  cases hnat

/-- The next token is a new one. -/
theorem Sound.next_not_mem (h : l.Sound) (hl : l.armed < tokenCount) : l.nextToken ∉ armedTokens l.prepared := by
  intro hm
  have := ((h.mem_iff (Nat.le_of_lt hl)).1 hm).2
  have := h.toNat_next hl
  omega

theorem Sound.ne_ignoreToken (h : l.Sound) (hl : l.armed ≤ tokenCount) {t : Token} (ht : t ∈ armedTokens l.prepared) :
    t ≠ ignoreToken := by
  rintro rfl
  have hle := ((h.mem_iff hl).1 ht).1
  exact absurd hle (by decide)

theorem Sound.ne_wakeToken (h : l.Sound) (hl : l.armed ≤ tokenCount) {t : Token} (ht : t ∈ armedTokens l.prepared) :
    t ≠ wakeToken := by
  rintro rfl
  have hle := ((h.mem_iff hl).1 ht).1
  exact absurd hle (by decide)

end Fresh

/-! ## Exact ledgers -/

/-- What holds of a ledger that has not run out of tokens. -/
structure Exact (l : Ledger) : Prop extends Sound l where
  /-- A registration owns its token. -/
  owned : ∀ fd r, l.registrations.get? fd = some r → r.token ≠ ignoreToken → l.owners.get? r.token = some fd
  /-- What is canceled has no owner any more. -/
  unowned : ∀ t ∈ targets l.prepared, l.owners.get? t = none
  /-- Nothing is canceled twice. -/
  once : (targets l.prepared).Nodup

theorem exact_empty : Exact {} where
  toSound := sound_empty
  owned _ _ h := by cases h
  unowned _ h := by cases h
  once := List.nodup_nil

/-- What is canceled was queued before. -/
theorem Sound.mem_of_target {l : Ledger} (h : l.Sound) {t : Token} (ht : t ∈ targets l.prepared) :
    t ∈ armedTokens l.prepared := by
  obtain ⟨s, hs, hst⟩ := mem_targets.1 ht
  obtain ⟨j, hj⟩ := List.mem_iff_getElem?.1 hs
  obtain ⟨u, rfl⟩ := eq_pollRemove hst
  obtain ⟨-, i, -, s, hi, hs⟩ := h.orderly j t u hj
  exact mem_armedTokens.2 ⟨s, List.mem_of_getElem? hi, hs⟩

theorem targets_arm (l : Ledger) (fd : Descriptor) (r : Registration) :
    targets (l.arm fd r).prepared = targets l.prepared := by
  simp [arm, targets]

theorem mem_targets_retire {l : Ledger} {fd : Descriptor} {t t' : Token} {fate : Fate} :
    t' ∈ targets (l.retire fd t fate).prepared ↔ t' ∈ targets l.prepared ∨ t' = t ∧ fate = .canceled := by
  cases fate <;> simp [retire, targets, Fate.requests, Submission.target?]

/-- The request of a registration is not canceled as long as it is in force. -/
theorem Exact.not_canceled {l : Ledger} (h : l.Exact) {fd : Descriptor} {r : Registration}
    (hr : l.registrations.get? fd = some r) (ht : r.token ≠ ignoreToken) : r.token ∉ targets l.prepared := by
  intro hm
  have hnone := h.unowned _ hm
  rw [h.owned fd r hr ht] at hnone
  cases hnone

theorem exact_retire {l : Ledger} (h : l.Exact) {fd : Descriptor} {r : Registration} (fate : Fate)
    (hr : l.registrations.get? fd = some r) (ht : r.token ≠ ignoreToken) : (l.retire fd r.token fate).Exact where
  toSound := sound_retire h.toSound fate hr ht
  owned fd' r' hr' h0 := by
    simp only [retire, Table.get?_erase] at hr' ⊢
    split at hr'
    · cases hr'
    · rename_i hfd
      have ho := h.owned fd' r' hr' h0
      -- a token has one owner, so another registration has another token
      rw [if_neg fun he => hfd (by rw [he, h.owned fd r hr ht] at ho; cases ho; rfl), ho]
  unowned t' ht' := by
    simp only [retire, Table.get?_erase]
    rcases mem_targets_retire.1 ht' with hm | ⟨rfl, -⟩
    · rw [h.unowned t' hm, ite_self]
    · rw [if_pos rfl]
  once := by
    have hnot := h.not_canceled hr ht
    have ho := h.once
    cases fate with
    | canceled =>
      simp only [retire, targets_append]
      exact List.nodup_append.2 ⟨ho, List.pairwise_singleton _ _, fun a ha b hb e =>
        hnot (by rw [← List.mem_singleton.1 hb, ← e]; exact ha)⟩
    | abandoned => simpa [retire, Fate.requests] using ho
    | finished => simpa [retire, Fate.requests] using ho

theorem exact_arm {l : Ledger} (h : l.Exact) (hl : l.armed < tokenCount) {fd : Descriptor} (r : Registration)
    (hn : l.registrations.get? fd = none) : (l.arm fd r).Exact where
  toSound := sound_arm h.toSound r hn
  owned fd' r' hr' h0 := by
    simp only [arm, Table.get?_insert] at hr' ⊢
    split at hr'
    · rename_i hfd
      cases hr'
      rw [if_pos rfl, hfd]
    · have hne : r'.token ≠ l.nextToken := fun he => h.next_not_mem hl (he ▸ h.mem hr' h0)
      rw [if_neg hne, h.owned fd' r' hr' h0]
  unowned t ht := by
    rw [targets_arm] at ht
    have hne : t ≠ l.nextToken := fun he => h.next_not_mem hl (he ▸ h.mem_of_target ht)
    simp only [arm, Table.get?_insert]
    rw [if_neg hne, h.unowned t ht]
  once := by
    rw [targets_arm]
    exact h.once

theorem exact_forget {l : Ledger} (h : l.Exact) {fd : Descriptor} {r : Registration}
    (hr : l.registrations.get? fd = some r) (ht : r.token = ignoreToken) : (l.forget fd).Exact where
  toSound := sound_forget h.toSound hr ht
  owned fd' r' hr' h0 := by
    simp only [forget, Table.get?_erase] at hr'
    split at hr'
    · cases hr'
    · exact h.owned fd' r' hr' h0
  unowned := h.unowned
  once := h.once

theorem exact_rest {l : Ledger} (h : l.Exact) {fd : Descriptor} (r : Registration)
    (hn : l.registrations.get? fd = none) : (l.rest fd r).Exact where
  toSound := sound_rest h.toSound r hn
  owned fd' r' hr' h0 := by
    simp only [rest, Table.get?_insert] at hr'
    split at hr'
    · cases hr'
      exact absurd rfl h0
    · exact h.owned fd' r' hr' h0
  unowned := h.unowned
  once := h.once

theorem targets_wake (l : Ledger) : targets l.wake.prepared = targets l.prepared := by
  simp [wake, targets, Submission.target?]

theorem exact_wake {l : Ledger} (h : l.Exact) : l.wake.Exact where
  toSound := sound_wake h.toSound
  owned := h.owned
  unowned t ht := h.unowned t (targets_wake l ▸ ht)
  once := (targets_wake l).symm ▸ h.once

/-- A step from an exact ledger leaves an exact one, if there was a token to take. -/
theorem Step.exact {l l' : Ledger} {d : Deed} (h : Step l d l') (hl : l'.armed ≤ tokenCount) (he : l.Exact) :
    l'.Exact := by
  cases h with
  | retire fate h ht => exact exact_retire he fate h ht
  | forget h ht => exact exact_forget he h ht
  | rest r h => exact exact_rest he r h
  | arm r h => exact exact_arm he (by rw [armed_arm] at hl; exact hl) r h
  | wake => exact exact_wake he

theorem Path.exact {l l' : Ledger} {ds : List Deed} (h : Path l ds l') (hl : l'.armed ≤ tokenCount) (he : l.Exact) :
    l'.Exact := by
  induction h with
  | nil _ => exact he
  | cons hs hp ih => exact ih hl (hs.exact (Nat.le_trans hp.armed_le hl) he)

/-! ## What stays -/

/-- A step queues requests behind those that were queued; among them is a cancellation only of a token that it
retires. -/
theorem Step.grows {l l' : Ledger} {d : Deed} (h : Step l d l') :
    ∃ new, l'.prepared = l.prepared ++ new ∧
      ∀ t ∈ targets new, ∃ fd r, l.registrations.get? fd = some r ∧ r.token = t ∧ t ≠ ignoreToken := by
  cases h with
  | @retire fd r fate h ht =>
    refine ⟨fate.requests r.token, rfl, fun t hm => ⟨fd, r, h, ?_⟩⟩
    cases fate with
    | canceled =>
      obtain rfl : t = r.token := by simpa [targets, Fate.requests, Submission.target?] using hm
      exact ⟨rfl, ht⟩
    | abandoned => cases hm
    | finished => cases hm
  | forget _ _ => exact ⟨[], (List.append_nil _).symm, fun t hm => by cases hm⟩
  | rest _ _ => exact ⟨[], (List.append_nil _).symm, fun t hm => by cases hm⟩
  | @arm fd r h => exact ⟨[request fd r l.nextToken], rfl, fun t hm => by simp [targets] at hm⟩
  | wake => exact ⟨[.nop wakeToken], rfl, fun t hm => by simp [targets, Submission.target?] at hm⟩

theorem Path.prefix {l l' : Ledger} {ds : List Deed} (h : Path l ds l') : l.prepared <+: l'.prepared := by
  induction h with
  | nil _ => exact List.prefix_rfl
  | cons hs _ ih =>
    obtain ⟨new, hnew, -⟩ := hs.grows
    exact List.IsPrefix.trans ⟨new, hnew.symm⟩ ih

theorem Path.armedTokens_subset {l l' : Ledger} {ds : List Deed} (h : Path l ds l') {t : Token}
    (ht : t ∈ armedTokens l.prepared) : t ∈ armedTokens l'.prepared := by
  obtain ⟨s, hs, hst⟩ := mem_armedTokens.1 ht
  exact mem_armedTokens.2 ⟨s, h.prefix.subset hs, hst⟩

/-- A token that was dealt out, and has no owner any more. -/
def Gone (l : Ledger) (t : Token) : Prop := t ∈ armedTokens l.prepared ∧ l.owners.get? t = none

theorem Step.gone {l l' : Ledger} {d : Deed} {t : Token} (h : Step l d l') (hl : l'.armed ≤ tokenCount)
    (he : l.Exact) (hg : l.Gone t) : l'.Gone t := by
  refine ⟨h.path.armedTokens_subset hg.1, ?_⟩
  cases h with
  | retire fate h ht =>
    show (Table.erase _ _).get? _ = _
    rw [Table.get?_erase, hg.2, ite_self]
  | forget _ _ => exact hg.2
  | rest _ _ => exact hg.2
  | arm r h =>
    rw [armed_arm] at hl
    have hne : t ≠ l.nextToken := fun e => he.next_not_mem hl (e ▸ hg.1)
    show (Table.insert _ _ _).get? _ = _
    rw [Table.get?_insert, if_neg hne, hg.2]
  | wake => exact hg.2

/-- A token without an owner gets none again, and is not canceled any more. -/
theorem Path.gone {l l' : Ledger} {ds : List Deed} {t : Token} (h : Path l ds l') (hl : l'.armed ≤ tokenCount)
    (he : l.Exact) (hg : l.Gone t) : l'.Gone t ∧ ∃ new, l'.prepared = l.prepared ++ new ∧ t ∉ targets new := by
  induction h with
  | nil _ => exact ⟨hg, [], (List.append_nil _).symm, List.not_mem_nil⟩
  | cons hs hp ih =>
    have hle := Nat.le_trans hp.armed_le hl
    obtain ⟨hg', new', hnew', hnot'⟩ := ih hl (hs.exact hle he) (hs.gone hle he hg)
    obtain ⟨new, hnew, htargets⟩ := hs.grows
    refine ⟨hg', new ++ new', by rw [hnew', hnew, List.append_assoc], ?_⟩
    rw [targets_append, List.mem_append]
    rintro (hm | hm)
    · obtain ⟨fd, r, hr, rfl, h0⟩ := htargets t hm
      have := hg.2
      rw [he.owned fd r hr h0] at this
      cases this
    · exact hnot' hm

/-- Some deed ends the request under a token without canceling it. -/
def Ended (ds : List Deed) (t : Token) : Prop := .retire t .finished ∈ ds ∨ .retire t .abandoned ∈ ds

/-- A token that was dealt out has an owner, or it had none to begin with, or it was canceled on the way, or a deed
says how it ended. -/
theorem Path.covered {l l' : Ledger} {ds : List Deed} (h : Path l ds l') {t : Token}
    (ht : t ∈ armedTokens l'.prepared) :
    l.Gone t ∨ (∃ fd, l'.owners.get? t = some fd) ∨ t ∈ targets l'.prepared ∨ Ended ds t := by
  induction h with
  | nil l =>
    cases ho : l.owners.get? t with
    | none => exact .inl ⟨ht, ho⟩
    | some fd => exact .inr (.inl ⟨fd, rfl⟩)
  | @cons l l₁ l₂ d ds hs hp ih =>
    rcases ih ht with hg | ho | hm | he
    · cases hs with
      | @retire fd r fate h h0 =>
        obtain ⟨hg₁, hg₂⟩ := hg
        simp only [retire, armedTokens_append, armedTokens_requests, List.append_nil] at hg₁
        by_cases he : t = r.token
        · subst he
          cases fate with
          | canceled =>
            have hm : r.token ∈ targets (l.retire fd r.token .canceled).prepared :=
              mem_targets_retire.2 (.inr ⟨rfl, rfl⟩)
            obtain ⟨s, hs, hst⟩ := mem_targets.1 hm
            exact .inr (.inr (.inl (mem_targets.2 ⟨s, hp.prefix.subset hs, hst⟩)))
          | abandoned => exact .inr (.inr (.inr (.inr List.mem_cons_self)))
          | finished => exact .inr (.inr (.inr (.inl List.mem_cons_self)))
        · refine .inl ⟨hg₁, ?_⟩
          simpa [retire, Table.get?_erase, he] using hg₂
      | forget _ _ => exact .inl hg
      | rest _ _ => exact .inl hg
      | arm r h =>
        obtain ⟨hg₁, hg₂⟩ := hg
        simp only [arm, Table.get?_insert] at hg₂
        split at hg₂
        · cases hg₂
        · rename_i hne
          rw [armedTokens_arm, List.mem_append] at hg₁
          exact .inl ⟨hg₁.resolve_right fun hm => hne (List.mem_singleton.1 hm), hg₂⟩
      | wake => exact .inl ⟨armedTokens_wake l ▸ hg.1, hg.2⟩
    · exact .inr (.inl ho)
    · exact .inr (.inr (.inl hm))
    · exact .inr (.inr (.inr (he.imp (List.mem_cons_of_mem _) (List.mem_cons_of_mem _))))

end Vigil.RingPoller.Ledger
