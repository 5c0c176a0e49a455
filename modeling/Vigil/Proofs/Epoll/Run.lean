import Vigil.Epoll
import Vigil.Proofs.Epoll.PollSet
import Vigil.Proofs.RingPoller.Run

/-!
# Runs of a poll set

Operations are carried out one after the other on a poll set that lives in the kernel of `PollSet`.

- `Epoll.perform`, `Epoll.run`, `Epoll.answer`: what callers do, what it leads to, and what they are left with;
- `Epoll.Awaits`: the channel is registered and armed under its key, and nothing else has that key. That holds once a
  poll set was created (`created`), and is kept by operations that leave the channel and its key alone;
- `Awaits.perform_wait`: a wait succeeds with what the first sweep picks that is not interrupted, and empties the
  channel.
-/

namespace Vigil

open RingPoller (Operation Answer)

/-- Whether the caller was told of a wake-up. -/
def RingPoller.Answer.notified (a : Answer) : Bool := a.records.any Record.isNotify

namespace RingPoller.Operation

/-- Whether an operation leaves a channel and its key alone. -/
def Avoids (c : Channel) : Operation → Prop
  | add fd e _ => fd ≠ c.watched ∧ e.key ≠ notifyKey
  | modify fd e _ => fd ≠ c.watched ∧ e.key ≠ notifyKey
  | remove fd => fd ≠ c.watched
  | _ => True

instance (c : Channel) : (o : Operation) → Decidable (o.Avoids c)
  | add fd e _ => inferInstanceAs (Decidable (fd ≠ c.watched ∧ e.key ≠ notifyKey))
  | modify fd e _ => inferInstanceAs (Decidable (fd ≠ c.watched ∧ e.key ≠ notifyKey))
  | remove fd => inferInstanceAs (Decidable (fd ≠ c.watched))
  | wake => isTrue trivial
  | wait _ _ => isTrue trivial

def isWake : Operation → Bool
  | wake => true
  | _ => false

def isWait : Operation → Bool
  | wait .. => true
  | _ => false

end RingPoller.Operation

namespace Epoll

section

variable {K : Kernel}

/-- Carries out an operation. -/
def perform (p : Epoll) : Operation → Sys K Answer
  | .add fd e mode => do pure { code := ← p.add fd e mode }
  | .modify fd e mode => do pure { code := ← p.modify fd e mode }
  | .remove fd => do pure { code := ← p.remove fd }
  | .wake => do
    p.wake
    pure {}
  | .wait b timeout => do
    let (code, b) ← p.wait b timeout
    pure { code, records := b.raw }

/-- What the caller of an operation is left with. -/
def answer (p : Epoll) (o : Operation) (w : World K) : Answer := (p.perform o w).1

/-- The world after several operations. -/
def run (p : Epoll) (os : List Operation) (w : World K) : World K := os.foldl (fun w o => (p.perform o w).2) w

/-- What the callers of several operations are left with. -/
def answers (p : Epoll) : List Operation → World K → List Answer
  | [], _ => []
  | o :: os, w => (p.perform o w).1 :: p.answers os (p.perform o w).2

end

open PollSet (ofWorld kernel registered)

variable {v : Vessel} {p : Epoll} {w : World (kernel v)}

/-! ## Registrations -/

/-- The code that stands for a reply. -/
def codeOf : Fallible Unit → Code
  | .ok _ => Code.success
  | .error code => code

theorem call_control (h : p.fd = (ofWorld w).set) (op : Control) (fd : Descriptor) (entry : Option PollRecord) :
    let r := call (.epollControl p.fd op fd entry) w
    (r.1, ofWorld r.2) = (ofWorld w).control op fd entry :=
  if_pos h

theorem register_spec (h : p.fd = (ofWorld w).set) (op : Control) (fd : Descriptor) (e : Event) (mode : Mode) :
    let r := (ofWorld w).control op fd (some ⟨e.interest mode, e.key⟩)
    (p.register op fd e mode w).1 = codeOf r.1 ∧ ofWorld (p.register op fd e mode w).2 = r.2 := by
  have hcontrol : ∀ u : World (kernel v), ofWorld u = ofWorld w →
      let r := (ofWorld w).control op fd (some ⟨e.interest mode, e.key⟩)
      (p.control op fd e mode u).1 = codeOf r.1 ∧ ofWorld (p.control op fd e mode u).2 = r.2 := by
    intro u hu
    have hc := call_control (v := v) (p := p) (w := u) (hu ▸ h) op fd (some ⟨e.interest mode, e.key⟩)
    rw [hu] at hc
    rw [control_eq, Sys.bind_apply, ← hc]
    cases (call (.epollControl p.fd op fd (some ⟨e.interest mode, e.key⟩)) u).1 <;> exact ⟨rfl, rfl⟩
  unfold register
  split
  · exact hcontrol _ rfl
  · exact hcontrol w rfl

theorem remove_spec (h : p.fd = (ofWorld w).set) (fd : Descriptor) :
    (p.remove fd w).1 = Code.success ∧ ofWorld (p.remove fd w).2 = ((ofWorld w).control .delete fd none).2 := by
  have hc := call_control (v := v) (p := p) (w := (note (.remove p.fd fd) w).2) h .delete fd none
  rw [remove_eq, Sys.bind_apply, Sys.bind_apply]
  generalize call (.epollControl p.fd .delete fd none) (note (.remove p.fd fd) w).2 = r at hc
  have hs : ofWorld r.2 = ((ofWorld w).control .delete fd none).2 := congrArg Prod.snd hc
  have hr : r.1 = ((ofWorld w).control .delete fd none).1 := congrArg Prod.fst hc
  rw [hr, ← hs]
  unfold PollSet.control
  cases (ofWorld w).entries.get? fd <;> exact ⟨rfl, rfl⟩

/-! ## The channel -/

theorem wake_spec (h : p.channel = some v.channel) :
    ofWorld (p.wake w).2 = { ofWorld w with level := (v.pour (ofWorld w).level).2 } := by
  let inv (r : Fallible Nat) (u : World (kernel v)) : Prop :=
    ofWorld u = { ofWorld w with level := (v.pour (ofWorld w).level).2 } ∧ interrupted r = false
  have first : inv (call v.channel.signaling (note (.wake p.fd) w).2).1
      (call v.channel.signaling (note (.wake p.fd) w).2).2 := by
    refine ⟨?_, v.not_interrupted_write _ _ _⟩
    rw [← v.write_signal]
    rfl
  have repeated : ∀ r u, inv r u → interrupted r = true →
      inv (call v.channel.signaling u).1 (call v.channel.signaling u).2 := by
    intro r u hi hr
    rw [hi.2] at hr
    cases hr
  obtain ⟨-, ⟨hs, -⟩, -, -⟩ := v.channel.wake_induct first repeated
  unfold wake
  rw [Sys.bind_apply, h, ← hs]
  dsimp only
  rw [Sys.bind_apply, Sys.ite_apply]
  split <;> rfl

theorem drain_spec (w : World (kernel v)) : ofWorld (v.channel.drain w).2 = { ofWorld w with level := 0 } := by
  let inv (r : Fallible Nat) (u : World (kernel v)) : Prop :=
    (∃ level, ofWorld u = { ofWorld w with level }) ∧ (v.channel.readAgain r = false → (ofWorld u).level = 0)
  have hread : ∀ u : World (kernel v), (∃ level, ofWorld u = { ofWorld w with level }) →
      inv (call v.channel.draining u).1 (call v.channel.draining u).2 := by
    rintro u ⟨level, hu⟩
    have hr : ofWorld (call v.channel.draining u).2 =
        { ofWorld u with level := (v.read (ofWorld u).level v.channel.watched v.channel.readSize).2 } := rfl
    rw [hu] at hr
    exact ⟨⟨_, hr⟩, v.level_read_eq_zero (ofWorld u).level⟩
  obtain ⟨r, ⟨⟨level, hu⟩, hl⟩, hr⟩ :=
    v.channel.drain_induct (hread w ⟨_, rfl⟩) fun (_ : Fallible Nat) u (hi : inv _ u) _ => hread u hi.1
  have hlevel : level = 0 := (congrArg PollSet.level hu).symm.trans (hl hr)
  rw [hlevel] at hu
  exact hu

/-- What the channel is registered for. -/
def channelWatch : Watch := ⟨(Event.readableOnly notifyKey).interest .oneshot, notifyKey, true⟩

theorem reattach_spec (hfd : p.fd = (ofWorld w).set) (hc : p.channel = some v.channel)
    (he : registered (ofWorld w).entries v.channel.watched ≠ none) :
    (p.reattach w).1 = Code.success ∧
      ofWorld (p.reattach w).2 =
        { ofWorld w with level := 0, entries := (ofWorld w).entries.insert v.channel.watched channelWatch } := by
  have hd := drain_spec w
  have hset : p.fd = (ofWorld (v.channel.drain w).2).set := by rw [hd]; exact hfd
  obtain ⟨hcode, hs⟩ := register_spec hset .modify v.channel.watched (Event.readableOnly notifyKey) .oneshot
  have hcontrol : (ofWorld (v.channel.drain w).2).control .modify v.channel.watched
      (some ⟨(Event.readableOnly notifyKey).interest .oneshot, (Event.readableOnly notifyKey).key⟩) =
        (.ok (),
          { ofWorld w with level := 0, entries := (ofWorld w).entries.insert v.channel.watched channelWatch }) := by
    obtain ⟨e, he⟩ := Option.ne_none_iff_exists'.1 fun h => he (Option.map_eq_none_iff.2 h)
    rw [hd]
    unfold PollSet.control
    rw [show ({ ofWorld w with level := 0 } : PollSet).entries.get? v.channel.watched = some e from he]
    rfl
  rw [hcontrol] at hcode hs
  unfold reattach
  rw [hc]
  exact ⟨hcode, hs⟩

/-! ## Waits -/

/-- A poll that is repeated while it is interrupted hands over what was picked. -/
theorem insist_poll (hfd : p.fd = (ofWorld w).set) (d : Deadline) :
    let r := insist interrupted (p.poll d) w
    r.1 = .ok (.ofList ((ofWorld w).handed v Buffer.capacity)) ∧
      (ofWorld w).Swept v Buffer.capacity (ofWorld r.2) := by
  -- until the sweep that is not interrupted, all that happens is that others pass
  let inv (a : Fallible (Batch PollRecord)) (u : World (kernel v)) : Prop :=
    if interrupted a then (ofWorld w).Passed (ofWorld u)
    else a = .ok (.ofList ((ofWorld w).handed v Buffer.capacity)) ∧ (ofWorld w).Swept v Buffer.capacity (ofWorld u)
  have hpoll : ∀ u : World (kernel v), (ofWorld w).Passed (ofWorld u) → inv (p.poll d u).1 (p.poll d u).2 := by
    intro u hu
    have ha : ((p.poll d u).1, ofWorld (p.poll d u).2) =
        (ofWorld u).sweep v Buffer.capacity (d.millis ((kernel v).clock u.kernel)) := by
      rw [poll_apply]
      exact if_pos (hfd.trans hu.set.symm)
    have hr : (p.poll d u).1 = ((ofWorld u).sweep v _ _).1 := congrArg Prod.fst ha
    have hs : ofWorld (p.poll d u).2 = ((ofWorld u).sweep v _ _).2 := congrArg Prod.snd ha
    show if interrupted (p.poll d u).1 then _ else _
    rw [hr, hs, PollSet.interrupted_sweep]
    split
    · rename_i hi
      exact hu.trans (PollSet.passed_sweep hi _ _)
    · rename_i hi
      obtain ⟨hok, hswept⟩ := PollSet.swept_sweep (v := v) (Bool.eq_false_iff.2 hi) Buffer.capacity
        (d.millis ((kernel v).clock u.kernel))
      rw [hu.handed] at hok
      refine ⟨hok, hswept.set.trans hu.set, ?_, hswept.level.trans hu.level⟩
      rw [hswept.entries, hu.picked, hu.entries]
  have hμ : ∀ u : World (kernel v), interrupted (p.poll d u).1 = true → (p.poll d u).2.patience < u.patience := by
    intro u h
    rw [poll_apply] at h ⊢
    exact patience_call_lt h
  have repeated : ∀ a u, inv a u → interrupted a = true → inv (p.poll d u).1 (p.poll d u).2 := by
    intro a u hi ha
    exact hpoll u ((if_pos ha : inv a u = _) ▸ hi)
  obtain ⟨h, hi⟩ := insist_induct hμ (hpoll w (.refl _)) repeated
  exact (if_neg (Bool.eq_false_iff.1 hi) : inv _ _ = _) ▸ h

/-- A wait succeeds with what was picked, empties the channel and arms it again. What fired stays registered. -/
theorem wait_spec (hfd : p.fd = (ofWorld w).set) (hc : p.channel = some v.channel)
    (he : registered (ofWorld w).entries v.channel.watched ≠ none) (b : Buffer) (timeout : Timeout) :
    let r := p.wait b timeout w
    r.1.1 = Code.success ∧ r.1.2.raw = ((ofWorld w).handed v Buffer.capacity).map Record.poll ∧
      (ofWorld r.2).set = (ofWorld w).set ∧ (ofWorld r.2).level = 0 ∧
      (ofWorld r.2).entries =
        (((ofWorld w).picked v Buffer.capacity).foldl PollSet.disarm (ofWorld w).entries).insert v.channel.watched
          channelWatch := by
  have hd := insist_poll (v := v) (p := p) (w := (note (.wait p.fd timeout) w).2) hfd
    (Deadline.after ((kernel v).clock (note (.wait p.fd timeout) w).2.kernel) timeout)
  rw [wait_apply]
  dsimp only at hd ⊢
  generalize insist interrupted _ _ = r at hd ⊢
  obtain ⟨hok, hset, hentries, -⟩ := hd
  obtain ⟨a, u⟩ := r
  subst hok
  let fired : World (kernel v) := (note (.fired p.fd ((ofWorld w).handed v Buffer.capacity).length) u).2
  have hwatched : registered (ofWorld fired).entries v.channel.watched ≠ none := by
    show registered (ofWorld u).entries _ ≠ none
    rw [hentries, PollSet.registered_foldl_disarm]
    exact he
  obtain ⟨hcode, hs⟩ := reattach_spec (v := v) (p := p) (w := fired) (hfd.trans hset.symm) hc hwatched
  refine ⟨hcode, ?_, (congrArg PollSet.set hs).trans hset, congrArg PollSet.level hs,
    (congrArg PollSet.entries hs).trans ?_⟩
  · show (b.fill ((Batch.ofList ((ofWorld w).handed v Buffer.capacity)).map Record.poll)).raw = _
    rw [Batch.map_ofList, Buffer.raw_fill_ofList, List.take_of_length_le]
    rw [List.length_map]
    exact PollSet.length_handed_le _ _
  · show (ofWorld u).entries.insert v.channel.watched channelWatch = _
    rw [hentries]
    rfl

/-! ## What a run keeps -/

/-- A poll set's channel is registered under its key, and nothing else is. -/
structure Awaits (v : Vessel) (p : Epoll) (s : PollSet) : Prop where
  fd : p.fd = s.set
  channel : p.channel = some v.channel
  armed : s.entries.get? v.channel.watched = some channelWatch
  keys : ∀ fd mask, registered s.entries fd = some (mask, notifyKey) → fd = v.channel.watched

namespace Awaits

theorem ofLevel {s : PollSet} (h : Awaits v p s) (level : Nat) : Awaits v p { s with level } :=
  ⟨h.fd, h.channel, h.armed, h.keys⟩

/-- Changes of other descriptors, under other keys, do not matter. -/
theorem control {s : PollSet} (h : Awaits v p s) (op : Control) {fd : Descriptor} {entry : Option PollRecord}
    (hfd : fd ≠ v.channel.watched) (hkey : ∀ r, entry = some r → r.key ≠ notifyKey) :
    Awaits v p (s.control op fd entry).2 := by
  have hne : v.channel.watched ≠ fd := fun e => hfd e.symm
  rcases s.control_cases op fd entry with hs | ⟨r, hr, hs⟩ | hs <;> rw [hs]
  · exact h
  · refine ⟨h.fd, h.channel, ?_, fun k mask hk => ?_⟩
    · exact (Table.get?_insert _ _ _ _).trans ((if_neg hne).trans h.armed)
    · rw [PollSet.registered_insert] at hk
      split at hk
      · exact absurd (congrArg Prod.snd (Option.some.inj hk)) (hkey r hr)
      · exact h.keys k mask hk
  · refine ⟨h.fd, h.channel, ?_, fun k mask hk => ?_⟩
    · exact (Table.get?_erase _ _ _).trans ((if_neg hne).trans h.armed)
    · rw [PollSet.registered_erase] at hk
      split at hk
      · cases hk
      · exact h.keys k mask hk

/-- A wait succeeds with what was picked, empties the channel, and arms it again. -/
theorem perform_wait (h : Awaits v p (ofWorld w)) (b : Buffer) (timeout : Timeout) :
    let r := p.perform (.wait b timeout) w
    r.1.code = Code.success ∧ r.1.records = ((ofWorld w).handed v Buffer.capacity).map Record.poll ∧
      Awaits v p (ofWorld r.2) ∧ (ofWorld r.2).level = 0 := by
  have he : registered (ofWorld w).entries v.channel.watched ≠ none := by
    unfold registered
    rw [h.armed]
    exact Option.some_ne_none _
  obtain ⟨hcode, hraw, hset, hlevel, hentries⟩ := wait_spec h.fd h.channel he b timeout
  refine ⟨hcode, hraw, ?_, hlevel⟩
  show Awaits v p (ofWorld (p.wait b timeout w).2)
  refine ⟨h.fd.trans hset.symm, h.channel, ?_, fun k mask hk => ?_⟩
  · rw [hentries, Table.get?_insert, if_pos rfl]
  · rw [hentries, PollSet.registered_insert, PollSet.registered_foldl_disarm] at hk
    split at hk
    · assumption
    · exact h.keys k mask hk

/-- Operations that leave the channel and its key alone keep it registered. -/
theorem perform (h : Awaits v p (ofWorld w)) {o : Operation} (ho : o.Avoids v.channel) :
    Awaits v p (ofWorld (p.perform o w).2) := by
  cases o with
  | add fd e mode =>
    show Awaits v p (ofWorld (p.register .add fd e mode w).2)
    rw [(register_spec h.fd .add fd e mode).2]
    exact h.control .add ho.1 fun r hr => by cases hr; exact ho.2
  | modify fd e mode =>
    show Awaits v p (ofWorld (p.register .modify fd e mode w).2)
    rw [(register_spec h.fd .modify fd e mode).2]
    exact h.control .modify ho.1 fun r hr => by cases hr; exact ho.2
  | remove fd =>
    show Awaits v p (ofWorld (p.remove fd w).2)
    rw [(remove_spec h.fd fd).2]
    exact h.control .delete ho fun r hr => by cases hr
  | wake =>
    show Awaits v p (ofWorld (p.wake w).2)
    rw [wake_spec h.channel]
    exact h.ofLevel _
  | wait b timeout => exact (h.perform_wait b timeout).2.2.1

theorem run : ∀ {os : List Operation} {w : World (kernel v)}, Awaits v p (ofWorld w) →
    (∀ o ∈ os, o.Avoids v.channel) → Awaits v p (ofWorld (p.run os w))
  | [], _, h, _ => h
  | o :: os, w, h, hos => by
    obtain ⟨ho, hos⟩ := List.forall_mem_cons.1 hos
    show Awaits v p (ofWorld (p.run os (p.perform o w).2))
    exact run (h.perform ho) hos

end Awaits

theorem setsUp (v : Vessel) : Channel.SetsUp (kernel v) where
  getFlags _ _ := rfl
  setFlags _ _ _ := rfl
  getDescriptorFlags _ _ := rfl
  setDescriptorFlags _ _ _ := rfl

theorem create_spec (w : World (kernel v)) :
    ((channelFor v.channel.strategy).create w).1 = (Code.success, v.channel) ∧
      ofWorld ((channelFor v.channel.strategy).create w).2 = ofWorld w := by
  obtain ⟨channel, -, -, -⟩ := v
  cases channel with
  | counter fd => exact ⟨rfl, rfl⟩
  | pipe reader writer =>
    obtain ⟨hcode, hworld⟩ := (setsUp _).setUpAll [reader, writer] (call .socketpair w).2
    have hpair : (call .socketpair w).1 = .ok (reader, writer) := rfl
    simp only [Channel.strategy, channelFor, Channel.newPipe, Channel.create, Sys.bind_apply, Sys.pure_apply, hpair,
      hcode]
    exact ⟨trivial, hworld⟩

/-- A poll set is created with its channel, which is registered if it was not before. -/
theorem init_spec (v : Vessel) (s : PollSet) (hs : s.entries.get? v.channel.watched = none) :
    let r := ({} : Epoll).init v.channel.strategy ({ kernel := s } : World (kernel v))
    r.1 = (Code.success, { fd := s.set, channel := some v.channel, attached := true }) ∧
      ofWorld r.2 = { s with entries := s.entries.insert v.channel.watched channelWatch } := by
  let w : World (kernel v) := (call (.epollCreate closeOnExec) { kernel := s }).2
  let q : Epoll := { fd := s.set, channel := some v.channel }
  show let r := openChannel { fd := s.set } v.channel.strategy w
    r.1 = (Code.success, { q with attached := true }) ∧
      ofWorld r.2 = { s with entries := s.entries.insert v.channel.watched channelWatch }
  obtain ⟨hcreate, hworld⟩ := create_spec w
  generalize hu : (channelFor v.channel.strategy).create w = u at hcreate hworld
  obtain ⟨hadd, hstate⟩ := register_spec (v := v) (p := q) (w := u.2) (congrArg PollSet.set hworld).symm .add
    v.channel.watched (Event.readableOnly notifyKey) .oneshot
  have hnew : ¬ (registered (ofWorld u.2).entries v.channel.watched).isSome = true := by
    rw [hworld]
    show ¬ (registered s.entries v.channel.watched).isSome = true
    simp [registered, hs]
  rw [PollSet.control_add, if_neg hnew, hworld] at hadd hstate
  have hopen : openChannel { fd := s.set } v.channel.strategy w =
      ((Code.success, { q with attached := true }), (note (.opened q.fd) (q.register .add v.channel.watched
        (Event.readableOnly notifyKey) .oneshot u.2).2).2) := by
    unfold openChannel
    simp only [Sys.bind_apply, hu, hcreate]
    have hattach : (v.channel.attach q.registrar u.2).1 = Code.success := hadd
    rw [if_neg (not_not_intro rfl), Sys.bind_apply, hattach, if_neg (not_not_intro rfl)]
    rfl
  rw [hopen]
  exact ⟨rfl, hstate⟩

/-- A new poll set awaits its channel, if nothing was registered before. -/
theorem created (v : Vessel) (s : PollSet) (hs : s.entries = {}) :
    let r := ({} : Epoll).init v.channel.strategy ({ kernel := s } : World (kernel v))
    r.1.1 = Code.success ∧ Awaits v r.1.2 (ofWorld r.2) := by
  obtain ⟨hr, hstate⟩ := init_spec v s (by rw [hs]; rfl)
  dsimp only at hr hstate ⊢
  rw [hr, hstate]
  refine ⟨rfl, rfl, rfl, ?_, fun k mask hk => ?_⟩
  · exact (Table.get?_insert _ _ _ _).trans (if_pos rfl)
  · rw [PollSet.registered_insert] at hk
    split at hk
    · assumption
    · rw [hs] at hk
      cases hk

end Epoll

end Vigil
