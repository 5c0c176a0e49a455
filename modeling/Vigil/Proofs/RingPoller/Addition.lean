import Vigil.Proofs.RingPoller.Account
import Vigil.Proofs.RingPoller.Taking
import Vigil.Replay

/-!
# Additions that fail

An addition can fail in four places. Three of them leave nothing behind (`Undone`): the checks come before the tables
are touched, and a registration for which there was no room is dropped again. The fourth does not: a registration
that was stored and armed stays when the kernel then turns its request down (`Stuck`), and the request stays queued.
Each addition is of one of the two kinds (`add_cases`).

* **What an addition that failed leaves** (`add_failed`): nothing, or a registration that adding again runs into.
* **The second does happen** (`add_left_behind`): the next submission hands the request over after all, and its
  completions become records under the key of the addition that failed.
-/

namespace Vigil.RingPoller

variable {K : Kernel}

/-! ## What is left behind -/

/-- The tables are as they were. Completions under the token that means nothing are dropped, so its owner does not
count. -/
structure Undone (p q : RingPoller) : Prop where
  registrations : q.registrations = p.registrations
  owners : ∀ t, t ≠ ignoreToken → q.owners.get? t = p.owners.get? t

theorem Undone.refl (p : RingPoller) : Undone p p where
  registrations := rfl
  owners _ _ := rfl

/-- The registration as it was to be added, with the token of its request if it watches anything. -/
def added (p : RingPoller) (e : Event) (mode : Mode) : Registration :=
  ⟨e, mode, if e.conditions = 0 then ignoreToken else p.nextToken⟩

/-- The descriptor is registered now, and if the registration watches anything, its request is queued and its token
has an owner. -/
structure Stuck (p q : RingPoller) (fd : Descriptor) (e : Event) (mode : Mode) : Prop where
  vacant : p.registrations.get? fd = none
  registrations : q.registrations = p.registrations.insert fd (p.added e mode)
  live : e.conditions ≠ 0 →
    (p.added e mode).token ≠ ignoreToken ∧ q.owners = p.owners.insert (p.added e mode).token fd ∧
      request fd (p.added e mode) (p.added e mode).token ∈ q.ring.pending

/-- A descriptor that was registered by an addition that failed is refused by the next one. -/
theorem Stuck.refused {p q : RingPoller} {fd : Descriptor} {e : Event} {mode : Mode} (h : Stuck p q fd e mode)
    {e' : Event} {mode' : Mode} (hm : mode' ≠ .level) (w : World K) :
    (q.add fd e' mode' w).1.1 = Code.alreadyExists := by
  have hfound : (q.registrations.get? fd).isSome = true := by
    rw [h.registrations, Table.get?_insert, if_pos rfl]
    rfl
  rw [add_apply]
  dsimp only
  rw [if_neg hm, if_pos hfound]

/-! ## Arming -/

/-- A registration that was put where there was none is dropped without a trace. -/
theorem erase_insert {t : Table Descriptor Registration} {fd : Descriptor} (h : t.get? fd = none) (r : Registration) :
    (t.insert fd r).erase fd = t := by
  have hinsert : (t.insert fd r).erase fd = t.erase fd := by
    simp [Table.insert, Table.erase]
  rw [hinsert, Table.erase_of_get?_eq_none h]

/-- An addition that is starved of a request is undone by dropping it. -/
theorem undone_arm {p : RingPoller} {fd : Descriptor} {r : Registration} {w : World K}
    (hn : p.registrations.get? fd = none) (hs : (p.arm fd r w).1.isStarved fd = true) :
    Undone p { (p.arm fd r w).1 with registrations := (p.arm fd r w).1.registrations.erase fd } := by
  obtain ⟨r', hr', htoken⟩ := token_of_isStarved hs
  rw [arm_apply] at hr' ⊢
  by_cases hc : r.event.conditions = 0
  · rw [if_pos hc]
    exact ⟨erase_insert hn _, fun _ _ => rfl⟩
  · rw [if_neg hc] at hr' ⊢
    by_cases hg : p.grants w = true
    · rw [if_pos hg] at hr' ⊢
      -- only a token that came round again leaves an armed registration starved
      have hround : (p.reserve w).1.nextToken = ignoreToken := by
        simp only [storeArmed, Table.get?_insert, if_true, Option.some.injEq] at hr'
        rw [← hr'] at htoken
        exact htoken
      constructor
      · simp only [storeArmed, registrations_reserve]
        exact erase_insert hn _
      · intro t ht
        simp only [storeArmed, hround, Table.get?_insert, if_neg ht, owners_reserve]
    · rw [if_neg hg]
      constructor
      · simp only [store, registrations_reserve]
        exact erase_insert hn _
      · intro t _
        simp only [store, owners_reserve]

/-- An addition that is not starved has its request queued, or needs none. -/
theorem stuck_arm {p : RingPoller} {fd : Descriptor} {e : Event} {mode : Mode} {w : World K}
    (hn : p.registrations.get? fd = none) (hs : (p.arm fd ⟨e, mode, ignoreToken⟩ w).1.isStarved fd = false) :
    Stuck p (p.arm fd ⟨e, mode, ignoreToken⟩ w).1 fd e mode := by
  rw [arm_apply] at hs ⊢
  by_cases hc : e.conditions = 0
  · rw [if_pos hc]
    refine ⟨hn, ?_, fun h => absurd hc h⟩
    simp [store, added, hc]
  · rw [if_neg hc] at hs ⊢
    by_cases hg : p.grants w = true
    · rw [if_pos hg] at hs ⊢
      have hadded : p.added e mode = ⟨e, mode, p.nextToken⟩ := by
        rw [added, if_neg hc]
      refine ⟨hn, ?_, fun _ => ⟨?_, ?_, ?_⟩⟩
      · simp only [storeArmed, registrations_reserve, nextToken_reserve, hadded]
      · rw [hadded]
        intro hround
        have hnext : p.nextToken = ignoreToken := hround
        simp [isStarved, storeArmed, Table.get?_insert, nextToken_reserve, hnext, hc] at hs
      · simp only [storeArmed, push, owners_reserve, nextToken_reserve, hadded]
      · have hlast : request fd ⟨e, mode, ignoreToken⟩ p.nextToken ∈
            ((p.reserve w).1.storeArmed fd ⟨e, mode, ignoreToken⟩).ring.pending := by
          simp [storeArmed, push, Ring.push, nextToken_reserve]
        rw [hadded]
        exact hlast
    · -- without room the registration would be starved
      rw [if_neg hg] at hs
      simp [isStarved, store, Table.get?_insert, hc] at hs

/-! ## Failing -/

/-- An addition is turned down before anything changes, or dropped again, or it ends with the submission of what was
armed. -/
theorem add_cases (p : RingPoller) (fd : Descriptor) (e : Event) (mode : Mode) (w : World K) :
    (Undone p (p.add fd e mode w).1.2 ∧
        (p.add fd e mode w).1.1 ∈ [Code.invalid, Code.alreadyExists, Code.busy]) ∨
      (mode ≠ .level ∧ ∃ q v, Stuck p q fd e mode ∧ p.add fd e mode w = q.submit v) := by
  rw [add_apply]
  dsimp only
  by_cases hm : mode = .level
  · rw [if_pos hm]
    exact .inl ⟨.refl p, by simp⟩
  · rw [if_neg hm]
    by_cases hr : (p.registrations.get? fd).isSome = true
    · rw [if_pos hr]
      exact .inl ⟨.refl p, by simp⟩
    · rw [if_neg hr]
      have hn : p.registrations.get? fd = none := Option.not_isSome_iff_eq_none.1 hr
      by_cases hs : (p.arm fd ⟨e, mode, ignoreToken⟩ (w.noted (.register .add none fd e mode))).1.isStarved fd = true
      · rw [if_pos hs]
        exact .inl ⟨undone_arm hn hs, by simp⟩
      · rw [if_neg hs]
        exact .inr ⟨hm, _, _, stuck_arm hn (Bool.eq_false_iff.2 hs), rfl⟩

/-- **Additions that fail.** Whatever was done before, an addition that fails either has left the tables as they were,
and says that its arguments are at fault, that the descriptor is registered already, or that there was no room; or its
last exchange with the kernel was a submission that the kernel turned down with the very error that it returns, and
then the descriptor, which was not registered before, is now registered as if the addition had succeeded: under a token
with an owner, with its request queued for the next submission. From then on every addition of the descriptor is
refused, until the registration is removed. -/
theorem add_failed (m : Moment K) (fd : Descriptor) (e : Event) (mode : Mode)
    (h : (m.answer (.add fd e mode)).code ≠ Code.success) :
    let code := (m.answer (.add fd e mode)).code
    let m' := m.after (.add fd e mode)
    (Undone m.poller m'.poller ∧ code ∈ [Code.invalid, Code.alreadyExists, Code.busy]) ∨
      (mode ≠ .level ∧ Stuck m.poller m'.poller fd e mode ∧
        (∃ earlier time, m'.world.trace = earlier ++ [⟨.ringSubmit m'.poller.ring.pending, .error code, time⟩]) ∧
        ∀ e' mode', mode' ≠ .level → (m'.answer (.add fd e' mode')).code = Code.alreadyExists) := by
  intro code m'
  obtain hundone | ⟨hm, q, v, hstuck, hadd⟩ := add_cases m.poller fd e mode m.world
  · exact .inl hundone
  · have hcode : code = (q.submit v).1.1 := congrArg (·.1.1) hadd
    have hpoller : m'.poller = (q.submit v).1.2 := congrArg (·.1.2) hadd
    have hworld : m'.world = (q.submit v).2 := congrArg Prod.snd hadd
    have hfailed : (q.submit v).1.1 ≠ Code.success := hcode ▸ h
    obtain ⟨hkept, earlier, t, htrace⟩ := submit_of_failed hfailed
    have hstuck' : Stuck m.poller m'.poller fd e mode := by
      rw [hpoller, hkept]
      exact hstuck
    refine .inr ⟨hm, hstuck', ⟨earlier, t, ?_⟩, ?_⟩
    · rw [hworld, htrace, hpoller, hkept, hcode]
    · intro e' mode' hm'
      exact hstuck'.refused hm' m'.world

/-- A submission that the kernel turned down, and what the addition has left. -/
theorem add_failed_submission :
    let script : Script Service Entry := [(.ringSubmit, { error := some 11 })]
    let o := .add 5 (Event.all 7) .oneshot
    let m : Moment Replay.kernel := Moment.created 1 ({ script } : Replay)
    (m.answer o).code = 11 ∧
      ((Undone m.poller (m.after o).poller ∧
          (m.answer o).code ∈ [Code.invalid, Code.alreadyExists, Code.busy]) ∨
        (Mode.oneshot ≠ .level ∧ Stuck m.poller (m.after o).poller 5 (Event.all 7) .oneshot ∧
          (∃ earlier time, (m.after o).world.trace =
            earlier ++ [⟨.ringSubmit (m.after o).poller.ring.pending, .error (m.answer o).code, time⟩]) ∧
          ∀ e' mode', mode' ≠ .level → ((m.after o).answer (.add 5 e' mode')).code = Code.alreadyExists)) := by
  intro script o m
  have hcode : (m.answer o).code = 11 := by decide +kernel
  have hfailed : (m.answer o).code ≠ Code.success := by
    rw [hcode]
    decide
  exact ⟨hcode, add_failed m 5 (Event.all 7) .oneshot hfailed⟩

/-- The addition fails with the error of its submission, but its registration and the owner of its token stay. Adding
again is refused, and a completion of the request becomes a record under the key of the addition that failed. -/
theorem add_left_behind :
    let script : Script Service Entry :=
      [(.ringSubmit, { error := some 11 }), (.ringWait, { completions := [⟨2, 1, false⟩] })]
    let o := .add 5 (Event.all 7) .oneshot
    let m : Moment Replay.kernel := Moment.created 8 ({ script } : Replay)
    (m.answer o).code = 11 ∧
      m.poller.registrations = {} ∧
      (m.after o).poller.registrations.get? 5 = some ⟨Event.all 7, .oneshot, 2⟩ ∧
      m.poller.owners = {} ∧
      (m.after o).poller.owners.get? 2 = some 5 ∧
      ((m.after o).answer o).code = Code.alreadyExists ∧
      ((m.after o).answer (.wait Buffer.empty none)).records = [.poll ⟨1, 7⟩] := by
  decide +kernel

end Vigil.RingPoller
