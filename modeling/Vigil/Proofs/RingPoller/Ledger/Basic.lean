import Vigil.RingPoller.Basic

/-!
# The ledger of a polled ring

A `Ledger` is what there is to know about the requests of a polled ring: its two tables, the token to come, and all
requests that it ever queued. Few kinds of deeds change it (`Ledger.Step`): a registration is taken off or put on,
with its request or without, or a wake-up is queued.

* **Every ledger is sound** (`Step.sound`): each token with an owner is the token of its owner's registration, tokens
  are dealt out one after the other from `firstToken` on, and only requests that were queued before are canceled.
-/

namespace Vigil

theorem mem_armedTokens {ss : List Submission} {t : Token} :
    t ∈ armedTokens ss ↔ ∃ s ∈ ss, s.pollToken? = some t := List.mem_filterMap

theorem mem_targets {ss : List Submission} {t : Token} : t ∈ targets ss ↔ ∃ s ∈ ss, s.target? = some t :=
  List.mem_filterMap

theorem eq_pollRemove {s : Submission} {t : Token} (h : s.target? = some t) : ∃ u, s = .pollRemove t u := by
  cases s with
  | pollRemove t' u =>
    cases h
    exact ⟨u, rfl⟩
  | pollAdd _ _ _ => cases h
  | pollMultishot _ _ _ => cases h
  | nop _ => cases h

theorem armedTokens_append (ss₁ ss₂ : List Submission) :
    armedTokens (ss₁ ++ ss₂) = armedTokens ss₁ ++ armedTokens ss₂ := List.filterMap_append

theorem targets_append (ss₁ ss₂ : List Submission) : targets (ss₁ ++ ss₂) = targets ss₁ ++ targets ss₂ :=
  List.filterMap_append

/-- The one request under a token, if no two requests share one. -/
theorem filter_pollToken? {s : Submission} {t : Token} (ht : s.pollToken? = some t) :
    ∀ {ss : List Submission}, (armedTokens ss).Nodup → s ∈ ss → ss.filter (·.pollToken? == some t) = [s]
  | [], _, h => by cases h
  | x :: ss, hn, h => by
    by_cases hx : x.pollToken? = some t
    · rw [armedTokens, List.filterMap_cons_some hx, List.nodup_cons] at hn
      have hnone : ∀ y ∈ ss, ¬ (y.pollToken? == some t) = true := fun y hy he =>
        hn.1 (mem_armedTokens.2 ⟨y, hy, eq_of_beq he⟩)
      have hs : s = x := by
        rcases List.mem_cons.1 h with h | h
        · exact h
        · exact absurd (by simp [ht]) (hnone s h)
      rw [List.filter_cons_of_pos (by simp [hx]), List.filter_eq_nil_iff.2 hnone, hs]
    · have hs : s ∈ ss := by
        rcases List.mem_cons.1 h with rfl | h
        · exact absurd ht hx
        · exact h
      have hn' : (armedTokens ss).Nodup := by
        refine hn.sublist ?_
        unfold armedTokens
        rw [List.filterMap_cons]
        split
        · exact List.Sublist.refl _
        · exact List.sublist_cons_self _ _
      rw [List.filter_cons_of_neg (by simpa using hx)]
      exact filter_pollToken? ht hn' hs

/-- Requests under one token are the same, if no two share one. -/
theorem request_unique {ss : List Submission} (hn : (armedTokens ss).Nodup) {s s' : Submission} {t : Token}
    (h : s ∈ ss) (h' : s' ∈ ss) (hs : s.pollToken? = some t) (hs' : s'.pollToken? = some t) : s = s' := by
  have hone := (filter_pollToken? hs hn h).symm.trans (filter_pollToken? hs' hn h')
  exact (List.cons.inj hone).1

/-- A token stands in one place only, if no two requests share one. -/
theorem index_unique {ss : List Submission} (hn : (armedTokens ss).Nodup) {i j : Nat} {s s' : Submission} {t : Token}
    (hi : ss[i]? = some s) (hj : ss[j]? = some s') (hs : s.pollToken? = some t) (hs' : s'.pollToken? = some t) :
    i = j := by
  have hp := List.pairwise_iff_getElem.1 (List.pairwise_filterMap.1 hn)
  obtain ⟨hlt, rfl⟩ := List.getElem?_eq_some_iff.1 hi
  obtain ⟨hlt', rfl⟩ := List.getElem?_eq_some_iff.1 hj
  rcases Nat.lt_trichotomy i j with h | h | h
  · exact absurd rfl (hp i j hlt hlt' h t hs t hs')
  · exact h
  · exact absurd rfl (hp j i hlt' hlt h t hs' t hs)

namespace RingPoller

@[simp] theorem pollToken?_request (fd : Descriptor) (r : Registration) (t : Token) :
    (request fd r t).pollToken? = some t := by
  unfold request
  split <;> rfl

@[simp] theorem target?_request (fd : Descriptor) (r : Registration) (t : Token) :
    (request fd r t).target? = none := by
  unfold request
  split <;> rfl

/-! ## Steps -/

/-- The tables of a polled ring, with all requests that it ever queued. -/
structure Ledger where
  registrations : Table Descriptor Registration := {}
  owners : Table Token Descriptor := {}
  nextToken : Token := firstToken
  prepared : List Submission := []

/-- How the request of a registration comes to its end. -/
inductive Fate where
  /-- The kernel is asked to cancel it. -/
  | canceled
  /-- There was no room to ask. -/
  | abandoned
  /-- The kernel said that it is over. -/
  | finished
  deriving DecidableEq

/-- What is queued to bring a request to its end. -/
def Fate.requests (t : Token) : Fate → List Submission
  | canceled => [.pollRemove t ignoreToken]
  | _ => []

/-- What happens to a registration, or to none. -/
inductive Deed where
  /-- It is taken off, and its request comes to an end. -/
  | retire (t : Token) (fate : Fate)
  /-- It is taken off, and had no request. -/
  | forget (fd : Descriptor)
  /-- It is put on without a request. -/
  | rest (fd : Descriptor) (r : Registration)
  /-- It is put on with a request. -/
  | arm (fd : Descriptor) (r : Registration)
  /-- A wake-up is queued. -/
  | wake

namespace Ledger

/-- Takes off a registration and its request. -/
def retire (l : Ledger) (fd : Descriptor) (t : Token) (fate : Fate) : Ledger where
  registrations := l.registrations.erase fd
  owners := l.owners.erase t
  nextToken := l.nextToken
  prepared := l.prepared ++ fate.requests t

/-- Takes off a registration. -/
def forget (l : Ledger) (fd : Descriptor) : Ledger := { l with registrations := l.registrations.erase fd }

/-- Puts on a registration without a request. -/
def rest (l : Ledger) (fd : Descriptor) (r : Registration) : Ledger :=
  { l with registrations := l.registrations.insert fd { r with token := ignoreToken } }

/-- Puts on a registration with a request under the next token. -/
def arm (l : Ledger) (fd : Descriptor) (r : Registration) : Ledger where
  registrations := l.registrations.insert fd { r with token := l.nextToken }
  owners := l.owners.insert l.nextToken fd
  nextToken := l.nextToken + 1
  prepared := l.prepared ++ [request fd r l.nextToken]

/-- Queues a wake-up. -/
def wake (l : Ledger) : Ledger := { l with prepared := l.prepared ++ [.nop wakeToken] }

/-- One deed. A registration is only put on where there is none. -/
inductive Step : Ledger → Deed → Ledger → Prop
  | retire {l : Ledger} {fd : Descriptor} {r : Registration} (fate : Fate) (h : l.registrations.get? fd = some r)
      (ht : r.token ≠ ignoreToken) : Step l (.retire r.token fate) (l.retire fd r.token fate)
  | forget {l : Ledger} {fd : Descriptor} {r : Registration} (h : l.registrations.get? fd = some r)
      (ht : r.token = ignoreToken) : Step l (.forget fd) (l.forget fd)
  | rest {l : Ledger} {fd : Descriptor} (r : Registration) (h : l.registrations.get? fd = none) :
      Step l (.rest fd r) (l.rest fd r)
  | arm {l : Ledger} {fd : Descriptor} (r : Registration) (h : l.registrations.get? fd = none) :
      Step l (.arm fd r) (l.arm fd r)
  | wake {l : Ledger} : Step l .wake l.wake

/-- Deeds, one after the other. -/
inductive Path : Ledger → List Deed → Ledger → Prop
  | nil (l : Ledger) : Path l [] l
  | cons {l l₁ l₂ : Ledger} {d : Deed} {ds : List Deed} : Step l d l₁ → Path l₁ ds l₂ → Path l (d :: ds) l₂

theorem Path.append {l l₁ l₂ : Ledger} {ds es : List Deed} (h : Path l ds l₁) (h' : Path l₁ es l₂) :
    Path l (ds ++ es) l₂ := by
  induction h with
  | nil _ => exact h'
  | cons hs _ ih => exact .cons hs (ih h')

theorem Step.path {l l' : Ledger} {d : Deed} (h : Step l d l') : Path l [d] l' := .cons h (.nil _)

/-! ## Sound ledgers -/

/-- How many requests were ever queued that watch something. -/
def armed (l : Ledger) : Nat := (armedTokens l.prepared).length

/-- What cancels a request comes after it, and is itself under the token that means nothing. -/
def Orderly (ss : List Submission) : Prop :=
  ∀ (j : Nat) t u, ss[j]? = some (.pollRemove t u) →
    u = ignoreToken ∧ ∃ i < j, ∃ s, ss[i]? = some s ∧ s.pollToken? = some t

theorem Orderly.append {ss new : List Submission} (h : Orderly ss)
    (hn : ∀ t u, .pollRemove t u ∈ new → u = ignoreToken ∧ t ∈ armedTokens ss) : Orderly (ss ++ new) := by
  have hmono : ∀ {i : Nat} {s : Submission}, ss[i]? = some s → (ss ++ new)[i]? = some s := fun hi => by
    rw [List.getElem?_append_left (List.getElem?_eq_some_iff.1 hi).1, hi]
  intro j t u hj
  by_cases hlt : j < ss.length
  · rw [List.getElem?_append_left hlt] at hj
    obtain ⟨hu, i, hi, s, hs, hst⟩ := h j t u hj
    exact ⟨hu, i, hi, s, hmono hs, hst⟩
  · have hle := Nat.le_of_not_lt hlt
    rw [List.getElem?_append_right hle] at hj
    obtain ⟨hu, ht⟩ := hn t u (List.mem_of_getElem? hj)
    obtain ⟨s, hs, hst⟩ := mem_armedTokens.1 ht
    obtain ⟨i, hi⟩ := List.mem_iff_getElem?.1 hs
    have hil := (List.getElem?_eq_some_iff.1 hi).1
    exact ⟨hu, i, Nat.lt_of_lt_of_le hil hle, s, hmono hi, hst⟩

/-- What holds of every ledger. -/
structure Sound (l : Ledger) : Prop where
  /-- The owner of a token is registered, under that token. -/
  owner : ∀ t fd, t ≠ ignoreToken → l.owners.get? t = some fd →
    ∃ r, l.registrations.get? fd = some r ∧ r.token = t
  /-- Only tokens that were dealt out have owners. -/
  dealt : ∀ t fd, l.owners.get? t = some fd → t ∈ armedTokens l.prepared
  /-- Tokens are dealt out in order. -/
  tokens : armedTokens l.prepared = (List.range l.armed).map fun i => UInt64.ofNat (i + 2)
  next : l.nextToken = UInt64.ofNat (l.armed + 2)
  /-- The request of a registration was queued. -/
  queued : ∀ fd r, l.registrations.get? fd = some r → r.token ≠ ignoreToken → request fd r r.token ∈ l.prepared
  orderly : Orderly l.prepared

theorem Sound.mem {l : Ledger} (h : l.Sound) {fd : Descriptor} {r : Registration}
    (hr : l.registrations.get? fd = some r) (ht : r.token ≠ ignoreToken) : r.token ∈ armedTokens l.prepared :=
  mem_armedTokens.2 ⟨_, h.queued fd r hr ht, pollToken?_request fd r r.token⟩

theorem sound_empty : Sound {} where
  owner _ _ _ h := by cases h
  dealt _ _ h := by cases h
  tokens := rfl
  next := rfl
  queued _ _ h := by cases h
  orderly _ _ _ h := by cases h

theorem armedTokens_requests (fate : Fate) (t : Token) : armedTokens (fate.requests t) = [] := by
  cases fate <;> rfl

theorem armed_retire (l : Ledger) (fd : Descriptor) (t : Token) (fate : Fate) :
    (l.retire fd t fate).armed = l.armed := by
  simp [armed, retire, armedTokens_append, armedTokens_requests]

theorem armedTokens_arm (l : Ledger) (fd : Descriptor) (r : Registration) :
    armedTokens (l.arm fd r).prepared = armedTokens l.prepared ++ [l.nextToken] := by
  simp [arm, armedTokens]

theorem armed_arm (l : Ledger) (fd : Descriptor) (r : Registration) : (l.arm fd r).armed = l.armed + 1 := by
  simp [armed, armedTokens_arm]

theorem sound_retire {l : Ledger} (h : l.Sound) {fd : Descriptor} {r : Registration} (fate : Fate)
    (hr : l.registrations.get? fd = some r) (ht : r.token ≠ ignoreToken) : (l.retire fd r.token fate).Sound where
  owner t fd' h0 ho := by
    simp only [retire, Table.get?_erase] at ho ⊢
    split at ho
    · cases ho
    · rename_i hne
      obtain ⟨r', hr', rfl⟩ := h.owner t fd' h0 ho
      -- the registration that is taken off has another token
      have hfd : fd' ≠ fd := fun e => hne (by rw [e, hr] at hr'; cases hr'; rfl)
      exact ⟨r', by rw [if_neg hfd, hr'], rfl⟩
  dealt t fd' ho := by
    simp only [retire, Table.get?_erase] at ho ⊢
    split at ho
    · cases ho
    · rw [armedTokens_append]
      exact List.mem_append_left _ (h.dealt t fd' ho)
  tokens := by
    rw [armed_retire]
    simp only [retire, armedTokens_append, armedTokens_requests, List.append_nil]
    exact h.tokens
  next := by rw [armed_retire]; exact h.next
  queued fd' r' hr' h0 := by
    simp only [retire, Table.get?_erase] at hr' ⊢
    split at hr'
    · cases hr'
    · exact List.mem_append_left _ (h.queued fd' r' hr' h0)
  orderly := h.orderly.append fun t u hm => by
    cases fate with
    | canceled =>
      obtain ⟨rfl, rfl⟩ : t = r.token ∧ u = ignoreToken := by simpa [Fate.requests] using hm
      exact ⟨rfl, h.mem hr ht⟩
    | abandoned => cases hm
    | finished => cases hm

theorem sound_forget {l : Ledger} (h : l.Sound) {fd : Descriptor} {r : Registration}
    (hr : l.registrations.get? fd = some r) (ht : r.token = ignoreToken) : (l.forget fd).Sound where
  owner t fd' h0 ho := by
    obtain ⟨r', hr', rfl⟩ := h.owner t fd' h0 ho
    have hfd : fd' ≠ fd := fun e => h0 (by rw [e, hr] at hr'; cases hr'; exact ht)
    exact ⟨r', by simp only [forget, Table.get?_erase, if_neg hfd, hr'], rfl⟩
  dealt := h.dealt
  tokens := h.tokens
  next := h.next
  queued fd' r' hr' h0 := by
    simp only [forget, Table.get?_erase] at hr'
    split at hr'
    · cases hr'
    · exact h.queued fd' r' hr' h0
  orderly := h.orderly

theorem sound_rest {l : Ledger} (h : l.Sound) {fd : Descriptor} (r : Registration)
    (hn : l.registrations.get? fd = none) : (l.rest fd r).Sound where
  owner t fd' h0 ho := by
    obtain ⟨r', hr', rfl⟩ := h.owner t fd' h0 ho
    have hfd : fd' ≠ fd := fun e => by rw [e, hn] at hr'; cases hr'
    exact ⟨r', by simp only [rest, Table.get?_insert, if_neg hfd, hr'], rfl⟩
  dealt := h.dealt
  tokens := h.tokens
  next := h.next
  queued fd' r' hr' h0 := by
    simp only [rest, Table.get?_insert] at hr'
    split at hr'
    · cases hr'
      exact absurd rfl h0
    · exact h.queued fd' r' hr' h0
  orderly := h.orderly

theorem sound_arm {l : Ledger} (h : l.Sound) {fd : Descriptor} (r : Registration)
    (hn : l.registrations.get? fd = none) : (l.arm fd r).Sound where
  owner t fd' h0 ho := by
    simp only [arm, Table.get?_insert] at ho ⊢
    split at ho
    · rename_i ht
      cases ho
      exact ⟨{ r with token := l.nextToken }, by rw [if_pos rfl], ht.symm⟩
    · obtain ⟨r', hr', rfl⟩ := h.owner t fd' h0 ho
      have hfd : fd' ≠ fd := fun e => by rw [e, hn] at hr'; cases hr'
      exact ⟨r', by rw [if_neg hfd, hr'], rfl⟩
  dealt t fd' ho := by
    rw [armedTokens_arm]
    simp only [arm, Table.get?_insert] at ho
    split at ho
    · rename_i ht
      exact List.mem_append_right _ (List.mem_singleton.2 ht)
    · exact List.mem_append_left _ (h.dealt t fd' ho)
  tokens := by
    rw [armedTokens_arm, armed_arm, h.tokens, h.next, List.range_succ, List.map_append]
    rfl
  next := by
    rw [armed_arm]
    show l.nextToken + 1 = _
    rw [h.next, ← UInt64.ofNat_one, ← UInt64.ofNat_add]
  queued fd' r' hr' h0 := by
    simp only [arm, Table.get?_insert] at hr' ⊢
    split at hr'
    · rename_i he
      cases hr'
      rw [he]
      exact List.mem_append_right _ (List.mem_singleton.2 rfl)
    · exact List.mem_append_left _ (h.queued fd' r' hr' h0)
  orderly := h.orderly.append fun t u hm => by
    have := target?_request fd r l.nextToken
    rw [← List.mem_singleton.1 hm] at this
    cases this

theorem armedTokens_wake (l : Ledger) : armedTokens l.wake.prepared = armedTokens l.prepared := by
  simp [wake, armedTokens, Submission.pollToken?]

theorem armed_wake (l : Ledger) : l.wake.armed = l.armed := congrArg List.length (armedTokens_wake l)

theorem sound_wake {l : Ledger} (h : l.Sound) : l.wake.Sound where
  owner := h.owner
  dealt t fd ho := (armedTokens_wake l).symm ▸ h.dealt t fd ho
  tokens := by
    rw [armedTokens_wake, armed_wake]
    exact h.tokens
  next := by
    rw [armed_wake]
    exact h.next
  queued fd r hr h0 := List.mem_append_left _ (h.queued fd r hr h0)
  orderly := h.orderly.append fun t u hm => by cases List.mem_singleton.1 hm

/-- Every step leaves a sound ledger. -/
theorem Step.sound {l l' : Ledger} {d : Deed} (h : Step l d l') (hl : l.Sound) : l'.Sound := by
  cases h with
  | retire fate h ht => exact sound_retire hl fate h ht
  | forget h ht => exact sound_forget hl h ht
  | rest r h => exact sound_rest hl r h
  | arm r h => exact sound_arm hl r h
  | wake => exact sound_wake hl

theorem Path.sound {l l' : Ledger} {ds : List Deed} (h : Path l ds l') (hl : l.Sound) : l'.Sound := by
  induction h with
  | nil _ => exact hl
  | cons hs _ ih => exact ih (hs.sound hl)

end Ledger

end RingPoller

end Vigil
