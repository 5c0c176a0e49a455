import Mathlib.Logic.Function.Basic
import Vigil.Proofs.Epoll.Run
import Vigil.Proofs.RingPoller.Interest
import Vigil.Proofs.RingPoller.Room
import Vigil.Replay

/-!
# One contract of registrations

Poll sets leave their registrations to the kernel and go by its errors; polled rings keep tables of their own, in which
registrations are armed, fire and are armed again. Both follow one contract.

- `Registry`: all that the contract knows, which is the conditions and the key of each registration. `Registry.after`
  says what an operation does to it, `Registry.code` what its caller is told. Waits do nothing to it: whatever fires,
  once or not, stays registered;
- `Epoll.Follows`, `Moment.Follows`: the two simulations, each with a lemma for one step;
- `registrations_agree`: at each point of each run, both backends answer as the contract has it, and hold what it holds.
-/

namespace Vigil

open RingPoller (Operation Moment)

/-! ## The contract -/

/-- The conditions that descriptors are registered for, and the keys that they are registered under. -/
abbrev Registry := Descriptor → Option (Mask × Key)

namespace Registry

/-- No registration. -/
def empty : Registry := fun _ => none

/-- Puts a registration in the place of the one that was there. -/
def put (r : Registry) (fd : Descriptor) (e : Event) : Registry := Function.update r fd (some (e.conditions, e.key))

/-- What an operation makes of the registrations. -/
def after (r : Registry) : Operation → Registry
  | .add fd e _ => if (r fd).isSome then r else r.put fd e
  | .modify fd e _ => if (r fd).isSome then r.put fd e else r
  | .remove fd => Function.update r fd none
  | .wake => r
  | .wait .. => r

/-- What the caller of an operation is told. -/
def code (r : Registry) : Operation → Code
  | .add fd .. => if (r fd).isSome then Code.alreadyExists else Code.success
  | .modify fd .. => if (r fd).isSome then Code.success else Code.noEntry
  | _ => Code.success

/-- What several operations make of the registrations. -/
def run (r : Registry) (os : List Operation) : Registry := os.foldl after r

theorem put_apply (r : Registry) (fd : Descriptor) (e : Event) (k : Descriptor) :
    r.put fd e k = if k = fd then some (e.conditions, e.key) else r k :=
  Function.update_apply r fd _ k

end Registry

/-- Whether an operation leaves a channel alone, and uses a mode that polled rings have. -/
def RingPoller.Operation.Registers (c : Channel) : Operation → Prop
  | add fd _ mode => fd ≠ c.watched ∧ mode ≠ .level
  | modify fd _ mode => fd ≠ c.watched ∧ mode ≠ .level
  | remove fd => fd ≠ c.watched
  | _ => True

instance (c : Channel) : (o : Operation) → Decidable (o.Registers c)
  | .add fd _ mode => inferInstanceAs (Decidable (fd ≠ c.watched ∧ mode ≠ .level))
  | .modify fd _ mode => inferInstanceAs (Decidable (fd ≠ c.watched ∧ mode ≠ .level))
  | .remove fd => inferInstanceAs (Decidable (fd ≠ c.watched))
  | .wake => isTrue trivial
  | .wait _ _ => isTrue trivial

/-! ## Poll sets -/

/-- A mask without the bits of its mode. -/
def Mask.conditions (m : Mask) : Mask := m &&& ~~~(Mask.edge ||| Mask.oneshot)

/-- What a registration asks for is what its event asks for, whatever the mode. -/
theorem Event.conditions_interest (e : Event) (mode : Mode) : (e.interest mode).conditions = e.conditions := by
  -- the key plays no part
  have h : ∀ readable writable, (Event.interest ⟨0, readable, writable⟩ mode).conditions =
      Event.conditions ⟨0, readable, writable⟩ := by
    cases mode <;> decide
  exact h e.readable e.writable

/-- What a poll set holds, by its masks without the bits of their modes. -/
def PollSet.registry (s : PollSet) : Registry := fun fd => (registered s.entries fd).map fun r => (r.1.conditions, r.2)

namespace Epoll

open PollSet (ofWorld kernel registered)

variable {v : Vessel} {p : Epoll}

/-- A poll set whose channel is registered, and that holds what a registry does for all other descriptors. -/
structure Follows (v : Vessel) (p : Epoll) (s : PollSet) (r : Registry) : Prop where
  fd : p.fd = s.set
  channel : p.channel = some v.channel
  watched : registered s.entries v.channel.watched ≠ none
  registry : ∀ fd, fd ≠ v.channel.watched → s.registry fd = r fd

namespace Follows

variable {s : PollSet} {r : Registry}

theorem isSome_registered (h : Follows v p s r) {fd : Descriptor} (hfd : fd ≠ v.channel.watched) :
    (registered s.entries fd).isSome = (r fd).isSome := by
  rw [← h.registry fd hfd, PollSet.registry, Option.isSome_map]

theorem put (h : Follows v p s r) {fd : Descriptor} (hfd : fd ≠ v.channel.watched) (e : Event) (mode : Mode) :
    Follows v p { s with entries := s.entries.insert fd ⟨e.interest mode, e.key, true⟩ } (r.put fd e) := by
  refine ⟨h.fd, h.channel, ?_, fun k hk => ?_⟩
  · rw [PollSet.registered_insert, if_neg (Ne.symm hfd)]
    exact h.watched
  · rw [Registry.put_apply, PollSet.registry, PollSet.registered_insert]
    split
    · simp [Event.conditions_interest]
    · exact h.registry k hk

theorem erase (h : Follows v p s r) {fd : Descriptor} (hfd : fd ≠ v.channel.watched) :
    Follows v p { s with entries := s.entries.erase fd } (Function.update r fd none) := by
  refine ⟨h.fd, h.channel, ?_, fun k hk => ?_⟩
  · rw [PollSet.registered_erase, if_neg (Ne.symm hfd)]
    exact h.watched
  · rw [Function.update_apply, PollSet.registry, PollSet.registered_erase]
    split
    · rfl
    · exact h.registry k hk

/-- An operation on a poll set is answered and does as the contract has it. -/
theorem perform {w : World (kernel v)} (h : Follows v p (ofWorld w) r) {o : Operation} (ho : o.Registers v.channel) :
    (o.isWait = false → (p.answer o w).code = r.code o) ∧ Follows v p (ofWorld (p.perform o w).2) (r.after o) := by
  cases o with
  | add fd e mode =>
    obtain ⟨hcode, hstate⟩ := register_spec h.fd .add fd e mode
    rw [PollSet.control_add, h.isSome_registered ho.1] at hcode hstate
    show (_ → (p.register .add fd e mode w).1 = _) ∧ Follows v p (ofWorld (p.register .add fd e mode w).2) _
    rw [hcode, hstate]
    simp only [Registry.after, Registry.code]
    split
    · exact ⟨fun _ => rfl, h⟩
    · exact ⟨fun _ => rfl, h.put ho.1 e mode⟩
  | modify fd e mode =>
    obtain ⟨hcode, hstate⟩ := register_spec h.fd .modify fd e mode
    rw [PollSet.control_modify, h.isSome_registered ho.1] at hcode hstate
    show (_ → (p.register .modify fd e mode w).1 = _) ∧ Follows v p (ofWorld (p.register .modify fd e mode w).2) _
    rw [hcode, hstate]
    simp only [Registry.after, Registry.code]
    split
    · exact ⟨fun _ => rfl, h.put ho.1 e mode⟩
    · exact ⟨fun _ => rfl, h⟩
  | remove fd =>
    obtain ⟨hcode, hstate⟩ := remove_spec h.fd fd
    rw [PollSet.control_delete] at hstate
    refine ⟨fun _ => hcode, ?_⟩
    show Follows v p (ofWorld (p.remove fd w).2) _
    rw [hstate]
    exact h.erase ho
  | wake =>
    refine ⟨fun _ => rfl, ?_⟩
    show Follows v p (ofWorld (p.wake w).2) r
    rw [wake_spec h.channel]
    exact ⟨h.fd, h.channel, h.watched, h.registry⟩
  | wait b timeout =>
    obtain ⟨-, -, hset, -, hentries⟩ := wait_spec h.fd h.channel h.watched b timeout
    refine ⟨(fun hw => by cases hw), ?_⟩
    show Follows v p (ofWorld (p.wait b timeout w).2) r
    refine ⟨h.fd.trans hset.symm, h.channel, ?_, fun fd hfd => ?_⟩
    · rw [hentries, PollSet.registered_insert, if_pos rfl]
      exact Option.some_ne_none _
    · -- whatever fired stays registered
      rw [PollSet.registry, hentries, PollSet.registered_insert, if_neg hfd, PollSet.registered_foldl_disarm]
      exact h.registry fd hfd

theorem run : ∀ {os : List Operation} {w : World (kernel v)} {r : Registry}, Follows v p (ofWorld w) r →
    (∀ o ∈ os, o.Registers v.channel) → Follows v p (ofWorld (p.run os w)) (r.run os)
  | [], _, _, h, _ => h
  | o :: os, w, r, h, hos => by
    obtain ⟨ho, hos⟩ := List.forall_mem_cons.1 hos
    show Follows v p (ofWorld (p.run os (p.perform o w).2)) ((r.after o).run os)
    exact run (h.perform ho).2 hos

end Follows

/-- A new poll set holds nothing but its channel. -/
theorem follows_created (v : Vessel) (s : PollSet) (hs : s.entries = {}) :
    let r := ({} : Epoll).init v.channel.strategy ({ kernel := s } : World (kernel v))
    r.1.1 = Code.success ∧ Follows v r.1.2 (ofWorld r.2) Registry.empty := by
  obtain ⟨hr, hstate⟩ := init_spec v s (by rw [hs]; rfl)
  dsimp only at hr hstate ⊢
  rw [hr, hstate]
  refine ⟨rfl, rfl, rfl, ?_, fun fd hfd => ?_⟩
  · rw [PollSet.registered_insert, if_pos rfl]
    exact Option.some_ne_none _
  · rw [PollSet.registry, PollSet.registered_insert, if_neg hfd, hs]
    rfl

end Epoll

/-! ## Polled rings -/

namespace RingPoller

variable {K : Kernel}

/-- What a polled ring holds. -/
def registry (p : RingPoller) : Registry := fun fd => (p.watched fd).map fun e => (e.conditions, e.key)

/-- A polled ring with a sound ledger and room for requests, that holds what a registry does. -/
structure Moment.Follows (m : Moment K) (r : Registry) : Prop where
  sound : m.ledger.Sound
  fits : m.poller.ring.Fits
  registry : m.poller.registry = r

theorem isSome_registrations {p : RingPoller} {r : Registry} (h : p.registry = r) (fd : Descriptor) :
    (p.registrations.get? fd).isSome = (r fd).isSome := by
  rw [← h, registry, Option.isSome_map, watched, Option.isSome_map]

/-- A registration that was put on, and then handed over. -/
theorem registry_put {p q : RingPoller} {r : Registry} (h : p.registry = r) {fd : Descriptor} {e : Event}
    (hq : ∀ k, q.watched k = if k = fd then some e else p.watched k) : q.registry = r.put fd e := by
  funext k
  rw [Registry.put_apply, registry, hq, ← h]
  split <;> rfl

section

variable {p : RingPoller} {w : World K} {r : Registry} (hs : (p.ledger w).Sound) (hf : p.ring.Fits)
  (hr : p.registry = r)

include hs hf hr

/-- Adding to a ring, while its kernel accepts all requests and tokens last. -/
theorem add_of_accepting (fd : Descriptor) (e : Event) {mode : Mode} (hmode : mode ≠ .level)
    (ha : (p.add fd e mode w).2.Accepting)
    (hb : ((p.add fd e mode w).1.2.ledger (p.add fd e mode w).2).armed ≤ Ledger.tokenCount) :
    (p.add fd e mode w).1.1 = r.code (.add fd e mode) ∧
      (p.add fd e mode w).1.2.registry = r.after (.add fd e mode) := by
  simp only [Registry.after, Registry.code]
  rw [add_apply, if_neg hmode, isSome_registrations hr] at ha hb ⊢
  split
  · exact ⟨rfl, hr⟩
  · rename_i hnew
    rw [if_neg hnew] at ha hb
    let v := w.noted (.register .add none fd e mode)
    have hnone : (p.ledger v).registrations.get? fd = none := by
      rw [← isSome_registrations hr fd] at hnew
      exact Option.not_isSome_iff_eq_none.1 hnew
    have harm := account_arm p v fd ⟨e, mode, ignoreToken⟩
    rw [forget_of_none hnone] at harm
    have hstarved : (p.arm fd ⟨e, mode, ignoreToken⟩ v).1.isStarved fd = false := by
      cases hst : (p.arm fd ⟨e, mode, ignoreToken⟩ v).1.isStarved fd with
      | false => rfl
      | true =>
        dsimp only at ha hb
        rw [if_pos hst] at ha hb
        exact hst.symm.trans (not_isStarved_arm hf (harm.sound hs) ha hb)
    have hgo : ¬ (p.arm fd ⟨e, mode, ignoreToken⟩ v).1.isStarved fd = true := by simp [hstarved]
    dsimp only at ha ⊢
    rw [if_neg hgo] at ha ⊢
    obtain ⟨n, hn, -⟩ := submit_of_accepting ha
    rw [hn]
    exact ⟨rfl, registry_put hr (watched_arm p fd ⟨e, mode, ignoreToken⟩ v)⟩

/-- Changing a registration of a ring, while its kernel accepts all requests and tokens last. -/
theorem modify_of_accepting (fd : Descriptor) (e : Event) {mode : Mode} (hmode : mode ≠ .level)
    (ha : (p.modify fd e mode w).2.Accepting)
    (hb : ((p.modify fd e mode w).1.2.ledger (p.modify fd e mode w).2).armed ≤ Ledger.tokenCount) :
    (p.modify fd e mode w).1.1 = r.code (.modify fd e mode) ∧
      (p.modify fd e mode w).1.2.registry = r.after (.modify fd e mode) := by
  simp only [Registry.after, Registry.code]
  rw [modify_apply, if_neg hmode] at ha hb ⊢
  rw [← isSome_registrations hr fd]
  cases hold : p.registrations.get? fd with
  | none => exact ⟨rfl, hr⟩
  | some old =>
    rw [hold] at ha hb
    dsimp only at ha hb ⊢
    let v := w.noted (.register .modify none fd e mode)
    let c := p.cancel old v
    have hsound := ((account_cancel (w := v) hold).trans (account_arm c.1 c.2 fd ⟨e, mode, ignoreToken⟩)).sound hs
    have hstarved : (c.1.arm fd ⟨e, mode, ignoreToken⟩ c.2).1.isStarved fd = false := by
      rw [ledger_submit] at hb
      exact not_isStarved_arm (fits.cancel hf old v) hsound (accepting_of_submit ha) hb
    obtain ⟨n, hn, -⟩ := submit_of_accepting ha
    rw [hn, hstarved]
    refine ⟨rfl, registry_put hr fun k => ?_⟩
    show (c.1.arm fd ⟨e, mode, ignoreToken⟩ c.2).1.watched k = _
    rw [watched_arm, watched_cancel]

end

/-- Dropping a registration of a ring, while its kernel accepts all requests. -/
theorem remove_of_accepting {p : RingPoller} {w : World K} {r : Registry} (hr : p.registry = r) (fd : Descriptor)
    (ha : (p.remove fd w).2.Accepting) :
    (p.remove fd w).1.1 = Code.success ∧ (p.remove fd w).1.2.registry = Function.update r fd none := by
  refine ⟨?_, funext fun k => ?_⟩
  · rw [remove_apply] at ha ⊢
    cases hold : p.registrations.get? fd with
    | none => rfl
    | some old =>
      rw [hold] at ha
      obtain ⟨n, hn, -⟩ := submit_of_accepting ha
      dsimp only
      rw [hn]
  · rw [Function.update_apply, registry, watched_remove, ← hr]
    split <;> rfl

namespace Moment.Follows

variable {m : Moment K} {r : Registry}

/-- An operation on a polled ring is answered and does as the contract has it. -/
theorem after (h : m.Follows r) {c : Channel} {o : Operation} (ho : o.Registers c) (ha : (m.after o).world.Accepting)
    (hb : (m.after o).armed ≤ Ledger.tokenCount) :
    (o.isWait = false → (m.answer o).code = r.code o) ∧ (m.after o).Follows (r.after o) := by
  have hsound := (account_after m o h.sound).sound h.sound
  have hfits := RingPoller.fits.kept.after h.fits o
  cases o with
  | add fd e mode =>
    obtain ⟨hcode, hregistry⟩ := add_of_accepting h.sound h.fits h.registry fd e ho.2 ha hb
    exact ⟨fun _ => hcode, hsound, hfits, hregistry⟩
  | modify fd e mode =>
    obtain ⟨hcode, hregistry⟩ := modify_of_accepting h.sound h.fits h.registry fd e ho.2 ha hb
    exact ⟨fun _ => hcode, hsound, hfits, hregistry⟩
  | remove fd =>
    obtain ⟨hcode, hregistry⟩ := remove_of_accepting h.registry fd ha
    exact ⟨fun _ => hcode, hsound, hfits, hregistry⟩
  | wake =>
    refine ⟨fun _ => rfl, hsound, hfits, funext fun fd => ?_⟩
    have hw : (m.after .wake).poller.watched = m.poller.watched := watched_wake m.poller m.world
    show ((m.after .wake).poller.watched fd).map _ = _
    rw [hw]
    exact congrFun h.registry fd
  | wait b timeout =>
    refine ⟨(fun hw => by cases hw), hsound, hfits, funext fun fd => ?_⟩
    have hw := ((lasting_watched fd (m.poller.watched fd)).stretch.wait m.poller b timeout m.world rfl).2
    exact (congrArg (Option.map _) hw).trans (congrFun h.registry fd)

theorem run {c : Channel} : ∀ {os : List Operation} {m : Moment K} {r : Registry}, m.Follows r →
    (∀ o ∈ os, o.Registers c) → (m.run os).world.Accepting → (m.run os).armed ≤ Ledger.tokenCount →
    (m.run os).Follows (r.run os)
  | [], _, _, h, _, _, _ => h
  | o :: os, m, r, h, hos, ha, hb => by
    obtain ⟨ho, hos⟩ := List.forall_mem_cons.1 hos
    have hsound := (account_after m o h.sound).sound h.sound
    have hafter := h.after ho ((reaches_run os (m.after o)).accepting ha) (Nat.le_trans (armed_le_run hsound os) hb)
    show ((m.after o).run os).Follows ((r.after o).run os)
    exact run hafter.2 hos ha hb

end Moment.Follows

/-- A new polled ring holds nothing. -/
theorem follows_created {capacity : Nat} (hc : 0 < capacity) (t : K.State) :
    (Moment.created capacity t).Follows Registry.empty := by
  refine ⟨sound_created capacity t, fits_created hc t, funext fun fd => ?_⟩
  have hl : (Moment.created capacity t).poller.registrations = {} :=
    congrArg Ledger.registrations (ledger_created capacity t)
  simp [registry, watched, hl, Registry.empty, Table.get?]

end RingPoller

/-! ## Both -/

open PollSet (ofWorld kernel) in
/-- **Registrations.** Let a poll set and a polled ring be created, the one on a kernel that changes registrations as
the poll calls have it, the other on any kernel that accepts all requests. As long as tokens last, operations that leave
the channel alone and use a mode that both have are answered alike at each point of each run: an addition says that the
descriptor is registered just if it is, a change that it is not just if it is not, all else succeeds. And both hold the
same registrations, also after they fired, once or not: the same descriptors, besides the channel's own, under the same
keys and for the same conditions. -/
theorem registrations_agree {K : Kernel} (v : Vessel) (s : PollSet) (hs : s.entries = {}) (capacity : Nat)
    (hcapacity : 0 < capacity) (t : K.State) (os : List Operation) (hos : ∀ o ∈ os, o.Registers v.channel)
    (haccepting : ((Moment.created capacity t).run os).world.Accepting)
    (htokens : ((Moment.created capacity t).run os).armed ≤ UInt64.size - 2) :
    let r := ({} : Epoll).init v.channel.strategy ({ kernel := s } : World (kernel v))
    let p := r.1.2
    r.1.1 = Code.success ∧ ∀ before later, os = before ++ later →
      let w := p.run before r.2
      let m := (Moment.created capacity t).run before
      let registry := Registry.empty.run before
      (∀ fd, fd ≠ v.channel.watched → (ofWorld w).registry fd = registry fd) ∧ m.poller.registry = registry ∧
        ∀ o rest, later = o :: rest → o.isWait = false →
          (p.answer o w).code = registry.code o ∧ (m.answer o).code = registry.code o := by
  intro r p
  obtain ⟨hcode, hset⟩ := Epoll.follows_created v s hs
  refine ⟨hcode, ?_⟩
  rintro before later rfl w m registry
  have hbefore : ∀ o ∈ before, o.Registers v.channel := fun o ho => hos o (List.mem_append_left _ ho)
  have hsplit : (Moment.created capacity t).run (before ++ later) = m.run later := List.foldl_append
  rw [hsplit] at haccepting htokens
  have hfirst := RingPoller.follows_created hcapacity t
  have hsound := (RingPoller.account_run before _ hfirst.sound).sound hfirst.sound
  have hw : Epoll.Follows v p (ofWorld w) registry := hset.run hbefore
  have hm : m.Follows registry := hfirst.run hbefore ((RingPoller.reaches_run later m).accepting haccepting)
    (Nat.le_trans (RingPoller.armed_le_run hsound later) htokens)
  refine ⟨hw.registry, hm.registry, ?_⟩
  rintro o rest rfl ho
  have hregisters : o.Registers v.channel := hos o (List.mem_append_right _ List.mem_cons_self)
  have hafter := (RingPoller.account_after m o hm.sound).sound hm.sound
  refine ⟨(hw.perform hregisters).1 ho, (hm.after hregisters ?_ ?_).1 ho⟩
  · exact (RingPoller.reaches_run rest (m.after o)).accepting haccepting
  · exact Nat.le_trans (RingPoller.armed_le_run hafter rest) htokens

open PollSet (ofWorld kernel) in
/-- A registration for one wake-up that fired, on both: its entry is disarmed, and its request is over. Both still hold
it, and refuse to add it again. -/
theorem registrations_agree_fired :
    let v : Vessel := { channel := .counter 4, capacity := 1, capacity_pos := Nat.one_pos }
    let s : PollSet := { set := 3, sweeps := [{ ready := [(5, Mask.input)], picks := [5] }] }
    let t : Replay := { script := [(.ringWait, { completions := [⟨2, 1, false⟩] })] }
    let r := ({} : Epoll).init v.channel.strategy ({ kernel := s } : World (kernel v))
    let p := r.1.2
    let before := [.add 5 (Event.readableOnly 7) .oneshot, .wait Buffer.empty (some 0)]
    let w := p.run before r.2
    let m : Moment Replay.kernel := (Moment.created 1 t).run before
    let again := .add 5 (Event.all 8) .edge
    ((ofWorld w).entries.get? 5).map Watch.armed = some false ∧
      (m.poller.registrations.get? 5).map Registration.token = some ignoreToken ∧
      (ofWorld w).registry 5 = some (Mask.readInterest, 7) ∧ m.poller.registry 5 = some (Mask.readInterest, 7) ∧
      (p.answer again w).code = Code.alreadyExists ∧ (m.answer again).code = Code.alreadyExists := by
  intro v s t r p before w m again
  let later := [again, .remove 5, .modify 5 (Event.all 9) .edgeOneshot, again]
  have hregisters : ∀ o ∈ before ++ later, o.Registers v.channel := by decide +kernel
  have haccepting : ((Moment.created 1 t : Moment Replay.kernel).run (before ++ later)).world.Accepting := by
    decide +kernel
  obtain ⟨-, h⟩ := registrations_agree (K := Replay.kernel) v s rfl 1 (by decide) t (before ++ later) hregisters
    haccepting (by decide +kernel)
  obtain ⟨hset, hring, hcodes⟩ := h before later rfl
  obtain ⟨hadd, hadd'⟩ := hcodes again _ rfl rfl
  have hheld : Registry.empty.run before 5 = some (Mask.readInterest, 7) := by rfl
  have hcode : (Registry.empty.run before).code again = Code.alreadyExists := by rfl
  exact ⟨by decide +kernel, by decide +kernel, (hset 5 (by decide)).trans hheld, (congrFun hring 5).trans hheld,
    hadd.trans hcode, hadd'.trans hcode⟩

end Vigil
