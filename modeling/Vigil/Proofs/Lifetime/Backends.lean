import Vigil.Backend
import Vigil.Proofs.Calls
import Vigil.Proofs.Kqueue.Receipts
import Vigil.Proofs.Lifetime.Life
import Vigil.Proofs.RingPoller.Invariant
import Vigil.Proofs.Wait.Passage

/-!
# What backends have to give back

The dues of each kind of backend, and what its calls add to its life: creation incurs the dues (`Backend.shows_init`),
no operation changes them (`Backend.Idle`), and giving the backend up pays them (`Backend.shows_drop`).
-/

namespace Vigil

variable {K : Kernel}

/-! ## Channels -/

namespace Channel

/-- The descriptors of a channel. -/
def held : Channel → List Descriptor
  | pipe reader writer => ifOpen reader ++ ifOpen writer
  | counter fd => ifOpen fd

theorem shows_closeIfOpen (fd : Descriptor) :
    Shows (K := K) [] (closeIfOpen fd) fun _ xs => Dues.Closes (ifOpen fd) false xs := by
  unfold closeIfOpen ifOpen
  split
  · exact .call fun _ _ => ⟨List.forall_mem_singleton.2 rfl, rfl, rfl⟩
  · exact .pure .nil

theorem shows_close : ∀ c : Channel, Shows (K := K) [] c.close fun _ xs => Dues.Closes c.held false xs
  | pipe reader writer =>
    (shows_closeIfOpen reader).bind fun _ xs hxs => (shows_closeIfOpen writer).after xs fun _ _ hys => hxs.append hys
  | counter fd => shows_closeIfOpen fd

/-- A channel that held nothing holds what its creation handed out, whether all of it could be set up or not. -/
theorem shows_create {c : Channel} (hc : c.held = []) :
    Shows (K := K) [] c.create fun r xs => Equipped r.2.held none xs := by
  cases c with
  | pipe reader writer =>
    rw [create_pipe]
    refine .call_bind fun reply t => ?_
    let x : Exchange := ⟨.socketpair, reply, t⟩
    have hpair : Equipped x.channel none [x] := .singleton rfl rfl rfl
    cases reply with
    | error code =>
      refine .note_bind (.pure ?_)
      rw [hc]
      exact hpair
    | ok fds =>
      have hsetUp : Built (K := K) (·.isSetUp = true) (setUpAll [fds.1, fds.2]) :=
        built_setUpAll (fun _ => rfl) (fun _ _ => rfl) (fun _ => rfl) (fun _ _ => rfl) _
      refine hsetUp.confined.shows.bind_after fun code ys hys => .pure ?_
      have h := hpair.append (.of_isSetUp hys)
      rwa [List.append_nil] at h
  | counter fd =>
    rw [create_counter]
    refine .call_bind fun reply t => ?_
    let x : Exchange := ⟨.eventfd 0 counterFlags, reply, t⟩
    have hone : Equipped x.channel none [x] := .singleton rfl rfl rfl
    cases reply with
    | error r =>
      refine .note_bind (.pure ?_)
      rw [held, ifOpen_of_neg r.fd_neg]
      exact hone
    | ok fd => exact .pure hone

end Channel

/-! ## Opening and giving up -/

/-- Something is created, and then registered if it was created. -/
theorem shows_opening {α β : Type} {create : Sys K (Code × α)} {attach : α → Sys K Code} {held : α → List Descriptor}
    {c c' : α → Call} (hcreate : Shows [] create fun r xs => Equipped (held r.2) none xs)
    (hattach : ∀ a, Shows [] (attach a) (Asked (c a))) (hc : ∀ a, (c' a).Withdraws (c a)) (made : α → Bool → β)
    (failed : Code → Note) (opened : Note) :
    Shows [] (do
      let (code, a) ← create
      if code ≠ Code.success then
        pure (code, made a false)
      else
        let code ← attach a
        if code ≠ Code.success then
          note (failed code)
          pure (code, made a false)
        else
          note opened
          pure (Code.success, made a true)) fun r xs =>
      ∃ a attached, r.2 = made a attached ∧ Equipped (held a) (if attached then some (c' a) else none) xs := by
  refine hcreate.bind fun ⟨code, a⟩ xs hxs => ?_
  dsimp only at hxs ⊢
  split
  · exact .pure ⟨a, false, rfl, hxs⟩
  · refine (hattach a).bind_after fun code ys hys => ?_
    have h := hxs.register (hc a) hys
    split
    · rename_i hcode
      rw [if_neg hcode] at h
      exact .note_bind (.pure ⟨a, false, rfl, h⟩)
    · rename_i hcode
      rw [if_pos (Decidable.of_not_not hcode)] at h
      exact .note_bind (.pure ⟨a, true, rfl, h⟩)

/-- A registration is taken back if it was made, then its descriptors are closed, and then the one it was made with. -/
theorem shows_givingUp {detach close : Sys K Unit} {held : List Descriptor} {c : Call}
    (hdetach : Shows [] detach fun _ xs => xs ≠ [] ∧ ∀ x ∈ xs, x.call = c)
    (hclose : Shows [] close fun _ xs => Dues.Closes held false xs) (attached : Bool) (fd : Descriptor) :
    Shows [] (do
      if attached then detach
      close
      Channel.closeIfOpen fd) fun _ xs =>
      ∃ detaching closing, xs = detaching ++ closing ∧
        Dues.Paid { held := held ++ ifOpen fd, withdrawal := if attached then some c else none } detaching closing := by
  have hend : Shows (K := K) [] (do close; Channel.closeIfOpen fd) fun _ xs =>
      Dues.Closes (held ++ ifOpen fd) false xs :=
    hclose.bind fun _ xs hxs => (Channel.shows_closeIfOpen fd).after xs fun _ _ hys => hxs.append hys
  cases attached with
  | false => exact hend.mono fun _ xs hxs => ⟨[], xs, rfl, by simp, List.forall_mem_nil _, hxs⟩
  | true =>
    refine hdetach.bind fun _ xs ⟨hne, hcall⟩ => hend.after xs fun _ ys hys => ⟨xs, ys, rfl, ?_, ?_, hys⟩
    · exact iff_of_true hne rfl
    · exact fun x hx => congrArg some (hcall x hx).symm

/-! ## Poll sets -/

namespace Epoll

/-- The call that drops a descriptor. -/
abbrev dropping (p : Epoll) (fd : Descriptor) : Call := .epollControl p.fd .delete fd none

/-- The call that adds or changes a registration. -/
abbrev controlling (p : Epoll) (op : Control) (fd : Descriptor) (e : Event) (mode : Mode) : Call :=
  .epollControl p.fd op fd (some ⟨e.interest mode, e.key⟩)

/-- The call that adds a channel. -/
abbrev adding (p : Epoll) (c : Channel) : Call := p.controlling .add c.watched (.readableOnly notifyKey) .oneshot

/-- What a poll set has to give back. -/
def dues (p : Epoll) : Dues where
  held := (p.channel.map Channel.held).getD [] ++ ifOpen p.fd
  withdrawal := if p.attached then p.channel.map fun c => p.dropping c.watched else none

/-- A registration is asked for once, with the interest and the key of its event. -/
theorem shows_register (p : Epoll) (op : Control) (fd : Descriptor) (e : Event) (mode : Mode) :
    Shows (K := K) [] (p.register op fd e mode) (Asked (p.controlling op fd e mode)) := by
  have hcontrol : Shows (K := K) [] (p.control op fd e mode) (Asked (p.controlling op fd e mode)) := by
    rw [control_eq]
    refine .call_bind fun reply t => ?_
    let x : Exchange := ⟨p.controlling op fd e mode, reply, t⟩
    have hcall : ∀ y ∈ [x], y.call = p.controlling op fd e mode := List.forall_mem_singleton.2 rfl
    cases reply with
    | error code => exact .note_bind (.pure ⟨List.cons_ne_nil _ _, hcall, by simp [Exchange.registers]⟩)
    | ok _ => exact .pure ⟨List.cons_ne_nil _ _, hcall, by simp [Exchange.registers]⟩
  unfold register
  split
  · exact .note_bind hcontrol
  · exact hcontrol

theorem shows_attach (p : Epoll) (c : Channel) : Shows (K := K) [] (c.attach p.registrar) (Asked (p.adding c)) :=
  p.shows_register .add c.watched (.readableOnly notifyKey) .oneshot

theorem shows_detach (p : Epoll) (c : Channel) :
    Shows (K := K) [] (p.detach c) fun _ xs => xs ≠ [] ∧ ∀ x ∈ xs, x.call = p.dropping c.watched := by
  have hremove : Shows (K := K) [] (p.remove c.watched) fun _ xs =>
      xs ≠ [] ∧ ∀ x ∈ xs, x.call = p.dropping c.watched := by
    rw [remove_eq]
    refine .note_bind (.call_bind fun reply t => ?_)
    let x : Exchange := ⟨p.dropping c.watched, reply, t⟩
    have hcall : ∀ y ∈ [x], y.call = p.dropping c.watched := List.forall_mem_singleton.2 rfl
    cases reply with
    | error code =>
      dsimp only
      split
      · exact .pure ⟨List.cons_ne_nil _ _, hcall⟩
      · exact .note_bind (.pure ⟨List.cons_ne_nil _ _, hcall⟩)
    | ok _ => exact .pure ⟨List.cons_ne_nil _ _, hcall⟩
  refine hremove.bind fun code xs hxs => ?_
  split
  · exact .note hxs
  · exact .pure hxs

/-- What a poll set is equipped with is part of its dues. -/
theorem shows_openChannel (fd : Descriptor) (s : WakeStrategy) :
    Shows (K := K) [] (openChannel { fd } s) fun r xs => ∃ fds withdrawal, Equipped fds withdrawal xs ∧
      r.2.dues = { held := fds ++ ifOpen fd, withdrawal } := by
  let made (c : Channel) (attached : Bool) : Epoll := { fd, channel := some c, attached }
  have hnone : (channelFor s).held = [] := by cases s <;> decide
  have h := shows_opening (K := K) (Channel.shows_create hnone) (fun c => (made c false).shows_attach c)
    (fun c => .control fd c.watched _) made (fun code => .backend .epoll (.failed .attach code))
    (.backend .epoll (.opened fd))
  refine Shows.mono h ?_
  rintro r xs ⟨c, attached, hr, he⟩
  exact ⟨_, _, he, by rw [hr]; rfl⟩

theorem shows_init (s : WakeStrategy) : Shows (K := K) [] (init {} s) fun r xs => r.2.dues.Incurred xs := by
  rw [init_eq]
  refine .call_bind fun reply t => ?_
  let x : Exchange := ⟨.epollCreate closeOnExec, reply, t⟩
  cases reply with
  | error r =>
    have h := Dues.Incurred.cons (x := x) rfl .nil
    have hdues : ({ fd := r.fd } : Epoll).dues = {} := by
      simp [dues, ifOpen_of_neg r.fd_neg]
    exact .note_bind (.pure (hdues ▸ h))
  | ok fd =>
    refine (shows_openChannel fd s).after [x] ?_
    rintro r ys ⟨fds, withdrawal, he, hdues⟩
    rw [hdues]
    exact Dues.Incurred.cons (x := x) rfl he

/-- Its channel is dropped from a poll set if it was registered, then closed, and then the poll set is closed. -/
theorem shows_drop (p : Epoll) : Shows (K := K) [] p.drop fun _ xs =>
    ∃ detaching closing, xs = detaching ++ closing ∧ p.dues.Paid detaching closing := by
  obtain ⟨fd, channel, attached⟩ := p
  refine .note_bind ?_
  cases channel with
  | none =>
    refine (Channel.shows_closeIfOpen fd).mono fun _ xs hxs => ⟨[], xs, rfl, ?_, List.forall_mem_nil _, hxs⟩
    simp [dues]
  | some c => exact shows_givingUp (shows_detach _ c) c.shows_close attached fd

end Epoll

/-! ## Filter queues -/

namespace Waker

/-- The descriptors of a waker. -/
def held : Waker → List Descriptor
  | userFilter => []
  | channel c => c.held

/-- The changes that start watching a waker. -/
def attaching : Waker → List Kevent
  | userFilter => [Kevent.userChange (Kevent.add ||| Kevent.receipt ||| Kevent.clear) 0]
  | channel c => (Event.readableOnly notifyKey).changes c.watched .oneshot

/-- The changes that stop watching a waker. -/
def detaching : Waker → List Kevent
  | userFilter => [Kevent.userChange (Kevent.delete ||| Kevent.receipt) 0]
  | channel c => (Event.none 0).changes c.watched .oneshot

theorem withdraws (queue : Descriptor) (w : Waker) :
    Call.Withdraws (.keventChange queue w.detaching) (.keventChange queue w.attaching) := by
  cases w with
  | userFilter => exact .change queue rfl (by decide)
  | channel c => exact .change queue rfl (by simp [detaching, Event.changes, Event.none, Kevent.change]; decide)

theorem shows_close : ∀ w : Waker, Shows (K := K) [] w.close fun _ xs => Dues.Closes w.held false xs
  | userFilter => .pure .nil
  | channel c => c.shows_close

theorem shows_create (s : WakeStrategy) :
    Shows (K := K) [] (ofStrategy s).create fun r xs => Equipped r.2.held none xs := by
  cases s with
  | native => exact .pure .nil
  | pipe => exact (Channel.shows_create (by decide)).bind fun _ _ hxs => .pure hxs

end Waker

namespace Kqueue

/-- The call that asks for changes. -/
abbrev changing (q : Kqueue) (changes : List Kevent) : Call := .keventChange q.fd changes

/-- What a filter queue has to give back. -/
def dues (q : Kqueue) : Dues where
  held := (q.waker.map Waker.held).getD [] ++ ifOpen q.fd
  withdrawal := if q.attached then q.waker.map fun w => q.changing w.detaching else none

/-- Changes are asked for until they are not interrupted. Only the last answer can say that they were made. -/
theorem shows_apply (q : Kqueue) {changes : List Kevent} (h : changes.length ≤ maxChanges) :
    Shows (K := K) [] (q.apply changes) (Asked (q.changing changes)) := by
  let c : Call := q.changing changes
  rw [apply_eq, if_neg (Nat.not_lt.2 h)]
  refine (q.shows_handOver changes).bind ?_
  rintro reply _ ⟨⟨ys, t, rfl, hfront⟩, -⟩
  have hys : ∀ y ∈ ys, y.call = c ∧ y.registers = false := by
    intro y hy
    obtain ⟨t, rfl⟩ := hfront y hy
    exact ⟨rfl, rfl⟩
  have hcall : ∀ x ∈ ys ++ [⟨c, reply, t⟩], x.call = c :=
    List.forall_mem_append.2 ⟨fun y hy => (hys y hy).1, List.forall_mem_singleton.2 rfl⟩
  have hregisters : (∃ x ∈ ys ++ [⟨c, reply, t⟩], x.registers = true) ↔ Exchange.registers ⟨c, reply, t⟩ = true := by
    refine ⟨fun ⟨x, hx, hr⟩ => ?_, fun hr => ⟨_, List.mem_append_right _ (List.mem_singleton_self _), hr⟩⟩
    rcases List.mem_append.1 hx with hx | hx
    · exact absurd hr (by simp [(hys x hx).2])
    · rwa [List.mem_singleton.1 hx] at hr
  have hne : ys ++ [⟨c, reply, t⟩] ≠ [] := by simp
  cases reply with
  | error code => exact .note_bind (.pure ⟨hne, hcall, hregisters.trans beq_iff_eq⟩)
  | ok receipts =>
    have hcode : Exchange.registers ⟨c, .ok receipts, t⟩ = true ↔
        (verdict receipts).all (·.data.toInt32 == Code.success) = true := .rfl
    dsimp only
    cases hv : verdict receipts with
    | none => exact .pure ⟨hne, hcall, hregisters.trans (by simp [hcode, hv])⟩
    | some r => exact .note_bind (.pure ⟨hne, hcall, hregisters.trans (by simp [hcode, hv])⟩)

theorem shows_modify (q : Kqueue) (fd : Descriptor) (e : Event) (mode : Mode) :
    Shows (K := K) [] (q.modify fd e mode) (Asked (q.changing (e.changes fd mode))) := by
  unfold modify
  split
  · exact .note_bind (q.shows_apply (Nat.le_refl _))
  · exact q.shows_apply (Nat.le_refl _)

theorem shows_attach (q : Kqueue) (w : Waker) : Shows (K := K) [] (w.attach q) (Asked (q.changing w.attaching)) := by
  cases w with
  | userFilter => exact q.shows_apply (by decide)
  | channel c => exact q.shows_modify _ _ _

theorem shows_detach (q : Kqueue) (w : Waker) :
    Shows (K := K) [] (q.detach w) fun _ xs => xs ≠ [] ∧ ∀ x ∈ xs, x.call = q.changing w.detaching := by
  have h : Shows (K := K) [] (w.detach q) (Asked (q.changing w.detaching)) := by
    cases w with
    | userFilter => exact q.shows_apply (by decide)
    | channel c => exact q.shows_modify _ _ _
  refine h.bind fun code xs hxs => ?_
  split
  · exact .note ⟨hxs.ne_nil, hxs.call⟩
  · exact .pure ⟨hxs.ne_nil, hxs.call⟩

/-- What a filter queue is equipped with is part of its dues. -/
theorem shows_openWaker (fd : Descriptor) (s : WakeStrategy) :
    Shows (K := K) [] (openWaker { fd } s) fun r xs => ∃ fds withdrawal, Equipped fds withdrawal xs ∧
      r.2.dues = { held := fds ++ ifOpen fd, withdrawal } := by
  let made (waker : Waker) (attached : Bool) : Kqueue := { fd, waker := some waker, attached }
  have h := shows_opening (K := K) (Waker.shows_create s) (fun waker => (made waker false).shows_attach waker)
    (Waker.withdraws fd) made (fun code => .backend .kqueue (.failed .attach code)) (.backend .kqueue (.opened fd))
  refine Shows.mono h ?_
  rintro r xs ⟨waker, attached, hr, he⟩
  exact ⟨_, _, he, by rw [hr]; rfl⟩

theorem shows_init (s : WakeStrategy) : Shows (K := K) [] (init {} s) fun r xs => r.2.dues.Incurred xs := by
  rw [init_eq]
  refine .call_bind fun reply t => ?_
  let x : Exchange := ⟨.kqueueCreate, reply, t⟩
  cases reply with
  | error r =>
    have h := Dues.Incurred.cons (x := x) rfl .nil
    have hdues : ({ fd := r.fd } : Kqueue).dues = {} := by
      simp [dues, ifOpen_of_neg r.fd_neg]
    exact .note_bind (.pure (hdues ▸ h))
  | ok fd =>
    refine .call_bind fun reply t' => ?_
    let y : Exchange := ⟨.setDescriptorFlags fd Channel.closeOnExec, reply, t'⟩
    have hy : Equipped [] none [y] := .of_isSetUp (List.forall_mem_singleton.2 rfl)
    cases reply with
    | error code => exact .note_bind (.pure (Dues.Incurred.cons (x := x) rfl hy))
    | ok _ =>
      refine (shows_openWaker fd s).after [x, y] ?_
      rintro r zs ⟨fds, withdrawal, he, hdues⟩
      rw [hdues]
      exact Dues.Incurred.cons (x := x) rfl (hy.append he)

/-- Its waker is dropped from a filter queue if it was registered, then closed, and then the queue is closed. -/
theorem shows_drop (q : Kqueue) : Shows (K := K) [] q.drop fun _ xs =>
    ∃ detaching closing, xs = detaching ++ closing ∧ q.dues.Paid detaching closing := by
  obtain ⟨fd, waker, attached⟩ := q
  refine .note_bind ?_
  cases waker with
  | none =>
    refine (Channel.shows_closeIfOpen fd).mono fun _ xs hxs => ⟨[], xs, rfl, ?_, List.forall_mem_nil _, hxs⟩
    simp [dues]
  | some waker => exact shows_givingUp (shows_detach _ waker) waker.shows_close attached fd

end Kqueue

/-! ## Rings -/

namespace RingPoller

/-- What a polled ring has to give back. -/
def dues (p : RingPoller) : Dues where
  ring := p.isReady

theorem shows_init {p : RingPoller} (hp : p.isReady = false) :
    Shows (K := K) [] p.init fun r xs => r.2.dues.Incurred xs := by
  refine .call_bind fun reply t => ?_
  let x : Exchange := ⟨.ringCreate depth 0, reply, t⟩
  have h := Dues.Incurred.cons (x := x) rfl .nil
  cases reply with
  | error code =>
    have hdues : p.dues = {} := by
      unfold dues
      rw [hp]
    exact .note_bind (.pure (hdues ▸ h))
  | ok offer =>
    dsimp only
    cases offer <;> split <;> exact .note_bind (.pure h)

/-- A ring is taken down if it was created. -/
theorem shows_drop (p : RingPoller) : Shows (K := K) [] p.drop fun _ xs =>
    ∃ detaching closing, xs = detaching ++ closing ∧ p.dues.Paid detaching closing := by
  refine .note_bind ?_
  unfold dues
  split
  · rename_i hp
    rw [hp]
    exact .call fun _ _ => ⟨[], _, rfl, by simp, List.forall_mem_nil _, List.forall_mem_singleton.2 rfl, rfl, rfl⟩
  · rename_i hp
    rw [Bool.eq_false_iff.2 hp]
    exact .pure ⟨[], [], rfl, by simp, List.forall_mem_nil _, .nil⟩

/-- No operation creates a ring or takes one down. -/
theorem dues_kept (d : Dues) : Invariant K fun p => p.dues = d where
  submit {p} w h := by
    rw [← h]
    have hp := (handover_submit p w).poller
    dsimp only at hp
    rw [dues, hp]
    rfl
  push _ _ h := h
  tables _ _ _ h := h
  completed _ h := h

end RingPoller

/-! ## All backends -/

namespace Backend

/-- What a backend has to give back. -/
def dues : Backend → Dues
  | epoll p => p.dues
  | ring p => p.dues
  | kqueue q => q.dues

/-- The creation of a backend incurs its dues, whether it fails or not. -/
theorem shows_init (u : Setup) (k : Kind) :
    Shows (K := K) [] ((ofKind u k).init u) fun r xs => r.2.dues.Incurred xs := by
  cases k with
  | epoll => exact (Epoll.shows_init _).bind fun _ _ hxs => .pure hxs
  | ring => exact (RingPoller.shows_init rfl).bind fun _ _ hxs => .pure hxs
  | kqueue => exact (Kqueue.shows_init _).bind fun _ _ hxs => .pure hxs

/-- Giving a backend up pays its dues. -/
theorem shows_drop : ∀ b : Backend, Shows (K := K) [] b.drop fun _ xs =>
    ∃ detaching closing, xs = detaching ++ closing ∧ b.dues.Paid detaching closing
  | epoll p => p.shows_drop
  | ring p => p.shows_drop
  | kqueue q => q.shows_drop

/-- A program after which a backend has the same dues as before, and which neither asks for anything nor gives anything
back. -/
def Idle {α : Type} (b : Backend) (m : Sys K α) (next : α → Backend) : Prop :=
  Shows [] m fun a xs => (next a).dues = b.dues ∧ ∀ x ∈ xs, x.call.isInert = true

theorem idle_of_built {α : Type} {b : Backend} {m : Sys K α} {next : α → Backend}
    (h : Built (·.isInert = true) m) (hdues : ∀ w, (next (m w).1).dues = b.dues) : b.Idle m next := fun w => by
  obtain ⟨xs, hp, hxs⟩ := h.confined.shows w
  exact ⟨xs, hp, hdues w, hxs⟩

theorem isInert_of_isOfRingWait {c : Call} (h : c.isOfRingWait = true) : c.isInert = true := by
  cases c <;> first | rfl | cases h

theorem idle_add (b : Backend) (fd : Descriptor) (e : Event) (mode : Mode) :
    b.Idle (K := K) (b.add fd e mode) Prod.snd := by
  cases b with
  | epoll p =>
    exact idle_of_built ((p.built_register (fun _ _ _ _ => rfl) .add fd e mode).bind fun _ => .pure _)
      fun _ => rfl
  | ring p =>
    exact idle_of_built ((p.built_add (fun _ => isInert_of_isOfRingWait) fd e mode).bind fun _ => .pure _)
      fun w => (RingPoller.dues_kept p.dues).kept.after (m := ⟨p, w⟩) rfl (.add fd e mode)
  | kqueue q =>
    exact idle_of_built ((q.built_modify (fun _ _ => rfl) fd e mode).bind fun _ => .pure _) fun _ => rfl

theorem idle_modify (b : Backend) (fd : Descriptor) (e : Event) (mode : Mode) :
    b.Idle (K := K) (b.modify fd e mode) Prod.snd := by
  cases b with
  | epoll p =>
    exact idle_of_built ((p.built_register (fun _ _ _ _ => rfl) .modify fd e mode).bind fun _ => .pure _)
      fun _ => rfl
  | ring p =>
    exact idle_of_built ((p.built_modify (fun _ => isInert_of_isOfRingWait) fd e mode).bind fun _ => .pure _)
      fun w => (RingPoller.dues_kept p.dues).kept.after (m := ⟨p, w⟩) rfl (.modify fd e mode)
  | kqueue q =>
    exact idle_of_built ((q.built_modify (fun _ _ => rfl) fd e mode).bind fun _ => .pure _) fun _ => rfl

theorem idle_remove (b : Backend) (fd : Descriptor) : b.Idle (K := K) (b.remove fd) Prod.snd := by
  cases b with
  | epoll p =>
    exact idle_of_built ((p.built_remove (fun _ _ _ _ => rfl) fd).bind fun _ => .pure _) fun _ => rfl
  | ring p =>
    exact idle_of_built ((p.built_remove (fun _ => isInert_of_isOfRingWait) fd).bind fun _ => .pure _)
      fun w => (RingPoller.dues_kept p.dues).kept.after (m := ⟨p, w⟩) rfl (.remove fd)
  | kqueue q =>
    exact idle_of_built ((q.built_modify (fun _ _ => rfl) fd _ _).bind fun _ => .pure _) fun _ => rfl

theorem idle_wake (b : Backend) : b.Idle (K := K) b.wake id := by
  cases b with
  | epoll p => exact idle_of_built ((p.built_wake fun _ _ => rfl).bind fun _ => .pure _) fun _ => rfl
  | ring p =>
    exact idle_of_built ((p.built_wake fun _ => isInert_of_isOfRingWait).bind fun _ => .pure _)
      fun w => (RingPoller.dues_kept p.dues).kept.after (m := ⟨p, w⟩) rfl .wake
  | kqueue q =>
    exact idle_of_built ((q.built_wake (fun _ _ => rfl) fun _ _ => rfl).bind fun _ => .pure _) fun _ => rfl

theorem idle_submit (b : Backend) (changes : List Kevent) : b.Idle (K := K) (b.submit changes) fun _ => b := by
  refine idle_of_built ?_ fun _ => rfl
  cases b with
  | epoll p => exact .pure _
  | ring p => exact .pure _
  | kqueue q => exact q.built_apply (fun _ _ => rfl) _

end Backend

end Vigil
