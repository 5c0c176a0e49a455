import Vigil.Proofs.Epoll.Run

/-!
# Wake-ups of a poll set

A wake-up leaves the channel filled, armed and registered, so each sweep of the kernel may hand it over. The first wait
after it reports it just if the kernel does, and empties the channel in any case. So a wake-up that is not among what
the first wait gets is reported by no wait (`wake_reported_or_lost`, `wake_lost`).
-/

namespace Vigil.Epoll

open RingPoller (Operation Answer)
open PollSet (ofWorld kernel registered)

variable {v : Vessel} {p : Epoll} {w : World (kernel v)}

namespace Awaits

/-- A wait tells of a wake-up just if the channel was picked. -/
theorem notified_wait (h : Awaits v p (ofWorld w)) (b : Buffer) (timeout : Timeout) :
    (p.perform (.wait b timeout) w).1.notified = true ↔ v.channel.watched ∈ (ofWorld w).picked v Buffer.capacity := by
  have hraw : (p.perform (.wait b timeout) w).1.records = ((ofWorld w).handed v Buffer.capacity).map Record.poll :=
    (h.perform_wait b timeout).2.1
  unfold RingPoller.Answer.notified
  rw [hraw, List.any_map, List.any_eq_true]
  constructor
  · rintro ⟨r, hr, hkey⟩
    obtain ⟨fd, hfd, hfires⟩ := List.mem_filterMap.1 hr
    obtain ⟨mask, hregistered⟩ := PollSet.registered_of_fires hfires
    have hkey : r.key = notifyKey := eq_of_beq hkey
    rw [hkey] at hregistered
    rwa [← h.keys fd mask hregistered]
  · intro hm
    obtain ⟨r, hr⟩ := PollSet.mem_selection hm
    obtain ⟨mask, hregistered⟩ := PollSet.registered_of_fires hr
    have hkey : notifyKey = r.key := by
      have hwatched : registered (ofWorld w).entries v.channel.watched = some (channelWatch.mask, notifyKey) :=
        congrArg (Option.map _) h.armed
      exact congrArg Prod.snd (Option.some.inj (hwatched.symm.trans hregistered))
    refine ⟨r, List.mem_filterMap.2 ⟨_, hm, hr⟩, ?_⟩
    show (r.key == notifyKey) = true
    rw [hkey]
    exact beq_self_eq_true _

/-- A filled channel fires whenever it is looked at. -/
theorem fires {s : PollSet} (h : Awaits v p s) (hl : 0 < s.level) (x : Sweep) :
    (s.fires v x v.channel.watched).isSome = true := by
  have hc : s.conditions v x v.channel.watched = Mask.input :=
    (if_pos rfl).trans (if_neg (Nat.pos_iff_ne_zero.1 hl))
  unfold PollSet.fires
  rw [h.armed, hc]
  rfl

/-- Changes of registrations leave the channel's level alone. -/
theorem level_perform (h : Awaits v p (ofWorld w)) {o : Operation} (hwake : o.isWake = false)
    (hwait : o.isWait = false) : (ofWorld (p.perform o w).2).level = (ofWorld w).level := by
  cases o with
  | add fd e mode =>
    show (ofWorld (p.register .add fd e mode w).2).level = _
    rw [(register_spec h.fd .add fd e mode).2, PollSet.level_control]
  | modify fd e mode =>
    show (ofWorld (p.register .modify fd e mode w).2).level = _
    rw [(register_spec h.fd .modify fd e mode).2, PollSet.level_control]
  | remove fd =>
    show (ofWorld (p.remove fd w).2).level = _
    rw [(remove_spec h.fd fd).2, PollSet.level_control]
  | wake => cases hwake
  | wait b timeout => cases hwait

theorem level_wake_pos (h : Awaits v p (ofWorld w)) : 0 < (ofWorld (p.perform .wake w).2).level := by
  show 0 < (ofWorld (p.wake w).2).level
  rw [wake_spec h.channel]
  exact v.level_pour_pos _

/-- Until the next wait, a filled channel stays filled. -/
theorem filled_perform (h : Awaits v p (ofWorld w)) (hl : 0 < (ofWorld w).level) {o : Operation}
    (ho : o.isWait = false) : 0 < (ofWorld (p.perform o w).2).level := by
  cases o with
  | wake => exact h.level_wake_pos
  | wait b timeout => cases ho
  | _ => rwa [h.level_perform rfl rfl]

theorem filled_run : ∀ {os : List Operation} {w : World (kernel v)}, Awaits v p (ofWorld w) →
    (∀ o ∈ os, o.Avoids v.channel) → (∀ o ∈ os, o.isWait = false) → 0 < (ofWorld w).level →
      0 < (ofWorld (p.run os w)).level
  | [], _, _, _, _, hl => hl
  | o :: os, w, h, hos, hwait, hl => by
    obtain ⟨ho, hos⟩ := List.forall_mem_cons.1 hos
    obtain ⟨howait, hwait⟩ := List.forall_mem_cons.1 hwait
    show 0 < (ofWorld (p.run os (p.perform o w).2)).level
    exact (h.perform ho).filled_run hos hwait (h.filled_perform hl howait)

/-- Without a wake-up, an empty channel stays empty, and nobody is told of one. -/
theorem quiet_perform (h : Awaits v p (ofWorld w)) (hl : (ofWorld w).level = 0) {o : Operation}
    (ho : o.isWake = false) :
    (p.perform o w).1.notified = false ∧ (ofWorld (p.perform o w).2).level = 0 := by
  cases o with
  | wake => cases ho
  | wait b timeout =>
    refine ⟨Bool.eq_false_iff.2 fun hn => ?_, (h.perform_wait b timeout).2.2.2⟩
    exact PollSet.watched_not_mem_selection hl _ _ ((h.notified_wait b timeout).1 hn)
  | _ => exact ⟨rfl, by rwa [h.level_perform rfl rfl]⟩

theorem quiet_answers : ∀ {os : List Operation} {w : World (kernel v)}, Awaits v p (ofWorld w) →
    (∀ o ∈ os, o.Avoids v.channel) → (∀ o ∈ os, o.isWake = false) → (ofWorld w).level = 0 →
      ∀ a ∈ p.answers os w, a.notified = false
  | [], _, _, _, _, _ => List.forall_mem_nil _
  | o :: os, w, h, hos, hwake, hl => by
    obtain ⟨ho, hos⟩ := List.forall_mem_cons.1 hos
    obtain ⟨howake, hwake⟩ := List.forall_mem_cons.1 hwake
    obtain ⟨hnotified, hl'⟩ := h.quiet_perform hl howake
    exact List.forall_mem_cons.2 ⟨hnotified, (h.perform ho).quiet_answers hos hwake hl'⟩

end Awaits

/-- **Wake-ups.** Take a run of a new poll set whose operations leave its channel alone. Until the first wait after a
wake-up the channel fires whenever the kernel looks at it. That wait succeeds, and reports a wake-up just if the channel
is among what the kernel picks for it. In any case it empties the channel, so no wait after it reports a wake-up before
there is another one. -/
theorem wake_reported_or_lost (v : Vessel) (s : PollSet) (hs : s.entries = {}) (os : List Operation)
    (hos : ∀ o ∈ os, o.Avoids v.channel) :
    let r₀ := ({} : Epoll).init v.channel.strategy ({ kernel := s } : World (kernel v))
    let p := r₀.1.2
    r₀.1.1 = Code.success ∧
    ∀ before between b timeout later, os = before ++ .wake :: between ++ .wait b timeout :: later →
      (∀ o ∈ between, o.isWait = false) → (∀ o ∈ later, o.isWake = false) →
      let w := p.run (before ++ .wake :: between) r₀.2
      let r := p.perform (.wait b timeout) w
      (∀ x, ((ofWorld w).fires v x v.channel.watched).isSome = true) ∧ r.1.code = Code.success ∧
        (r.1.notified = true ↔ v.channel.watched ∈ (ofWorld w).picked v Buffer.capacity) ∧
        (ofWorld r.2).level = 0 ∧ ∀ a ∈ p.answers later r.2, a.notified = false := by
  intro r₀ p
  obtain ⟨hcode, h₀⟩ := created v s hs
  refine ⟨hcode, ?_⟩
  rintro before between b timeout later rfl hbetween hlater w r
  have hsplit : ∀ o, o ∈ before ∨ o ∈ between ∨ o ∈ later → o.Avoids v.channel := by
    intro o ho
    refine hos o ?_
    rcases ho with ho | ho | ho <;> simp [ho]
  have h₁ : Awaits v p (ofWorld (p.run before r₀.2)) := h₀.run fun o ho => hsplit o (.inl ho)
  have h₂ : Awaits v p (ofWorld (p.perform .wake (p.run before r₀.2)).2) := h₁.perform trivial
  have hw : w = p.run between (p.perform .wake (p.run before r₀.2)).2 := List.foldl_append
  have h₃ : Awaits v p (ofWorld w) := by
    rw [hw]
    exact h₂.run fun o ho => hsplit o (.inr (.inl ho))
  have hfilled : 0 < (ofWorld w).level := by
    rw [hw]
    exact h₂.filled_run (fun o ho => hsplit o (.inr (.inl ho))) hbetween h₁.level_wake_pos
  obtain ⟨hsuccess, -, h₄, hempty⟩ := h₃.perform_wait b timeout
  exact ⟨h₃.fires hfilled, hsuccess, h₃.notified_wait b timeout, hempty,
    h₄.quiet_answers (fun o ho => hsplit o (.inr (.inr ho))) hlater hempty⟩

/-- Two wake-ups and an interruption, then a sweep that hands over another descriptor and the channel: the wake-ups are
reported once. -/
theorem wake_reported_once :
    let v : Vessel := { channel := .counter 4, capacity := 18446744073709551614, capacity_pos := by decide }
    let s : PollSet :=
      { set := 3, sweeps := [{ interrupted := true }, { ready := [(5, Mask.input)], picks := [5, 4] }] }
    let before := [.add 5 (Event.readableOnly 7) .oneshot]
    let later := [.wait Buffer.empty (some 0)]
    let r₀ := ({} : Epoll).init v.channel.strategy ({ kernel := s } : World (kernel v))
    let p := r₀.1.2
    let r := p.perform (.wait Buffer.empty none) (p.run (before ++ .wake :: [.wake]) r₀.2)
    r.1.notified = true ∧ (ofWorld r.2).level = 0 ∧ ∀ a ∈ p.answers later r.2, a.notified = false := by
  intro v s before later
  have hos : ∀ o ∈ before ++ .wake :: [.wake] ++ .wait Buffer.empty none :: later, o.Avoids v.channel := by
    decide +kernel
  obtain ⟨-, h⟩ := wake_reported_or_lost v s rfl _ hos
  obtain ⟨-, -, hnotified, hempty, hlater⟩ := h before [.wake] Buffer.empty none later rfl (by decide) (by decide)
  exact ⟨hnotified.2 (by decide +kernel), hempty, hlater⟩

/-- A wake-up before a wait whose sweep hands over another descriptor only: the channel was filled, armed and
registered, the wait succeeds without reporting it, and whatever follows but another wake-up, no wait reports it. -/
theorem wake_lost :
    let v : Vessel := { channel := .counter 4, capacity := 18446744073709551614, capacity_pos := by decide }
    let x : Sweep := { ready := [(5, Mask.input)], picks := [5] }
    let r₀ := ({} : Epoll).init v.channel.strategy ({ kernel := { set := 3, sweeps := [x] } } : World (kernel v))
    let p := r₀.1.2
    let w := p.run [.add 5 (Event.readableOnly 7) .oneshot, .wake] r₀.2
    let r := p.perform (.wait Buffer.empty none) w
    (ofWorld w).level = 1 ∧ ((ofWorld w).fires v x 4).isSome = true ∧
      r.1 = { code := Code.success, records := [.poll ⟨Mask.input, 7⟩] } ∧ (ofWorld r.2).level = 0 ∧
      ∀ later : List Operation, (∀ o ∈ later, o.Avoids v.channel) → (∀ o ∈ later, o.isWake = false) →
        ∀ a ∈ p.answers later r.2, a.notified = false := by
  intro v x r₀ p w r
  have hos : ∀ o ∈ [.add 5 (Event.readableOnly 7) .oneshot, .wake], RingPoller.Operation.Avoids v.channel o := by
    decide +kernel
  have hw : Awaits v p (ofWorld w) := (created v _ rfl).2.run hos
  obtain ⟨-, -, hr, hempty⟩ := hw.perform_wait Buffer.empty none
  refine ⟨by decide +kernel, by decide +kernel, by decide +kernel, hempty, fun later hlater hwake => ?_⟩
  exact hr.quiet_answers hlater hwake hempty

end Vigil.Epoll
