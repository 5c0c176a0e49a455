import Vigil.Kqueue

/-!
# Lives of backends

The life of a backend, as its calls show it: it is opened, runs, takes the registration of its wake-up channel back, and
gives everything up (`Life`).

- `Life.Settled`: nothing that the kernel handed out is kept, and nothing is given back twice;
- `Dues`: what a backend has to give back. It is incurred by the calls that open the backend (`Dues.Incurred`), and paid
  by those that give it up (`Dues.Paid`). A life whose dues are incurred and paid is settled (`Dues.settled`).
-/

namespace Vigil

/-! ## What calls give and take -/

/-- A number that was answered in the place of a descriptor, if it is one. -/
def ifOpen (fd : Descriptor) : List Descriptor := if 0 ≤ fd then [fd] else []

theorem ifOpen_of_neg {fd : Descriptor} (h : fd < 0) : ifOpen fd = [] := if_neg (Int32.not_le.2 h)

namespace Call

/-- Whether a call asks for what a backend polls on. -/
def begins : Call → Bool
  | epollCreate _ => true
  | kqueueCreate => true
  | ringCreate .. => true
  | _ => false

/-- Whether a call asks for the descriptors of a channel. -/
def equips : Call → Bool
  | eventfd .. => true
  | socketpair => true
  | _ => false

/-- Whether a call gives something back. -/
def ends : Call → Bool
  | close _ => true
  | ringExit _ => true
  | _ => false

/-- Whether a call sets up a file. -/
def isSetUp : Call → Bool
  | getFlags _ => true
  | setFlags .. => true
  | getDescriptorFlags _ => true
  | setDescriptorFlags .. => true
  | _ => false

/-- Whether a call asks for nothing and gives nothing back. -/
def isInert (c : Call) : Bool := !c.begins && !c.equips && !c.ends

/-- A call takes back the registration that another one makes. -/
inductive Withdraws : Call → Call → Prop
  | control (set : Descriptor) (fd : Descriptor) (entry : Option PollRecord) :
    Withdraws (epollControl set .delete fd none) (epollControl set .add fd entry)
  | change (queue : Descriptor) {ks ks' : List Kevent}
    (same : ks'.map (fun k => (k.ident, k.filter)) = ks.map fun k => (k.ident, k.filter))
    (deletes : ∀ k ∈ ks', k.flags &&& Kevent.delete ≠ 0) :
    Withdraws (keventChange queue ks') (keventChange queue ks)

theorem Withdraws.isInert {c c' : Call} (h : c.Withdraws c') : c.isInert = true := by
  cases h <;> rfl

end Call

namespace Exchange

/-- The poll set or filter queue that a call created. -/
def queue : Exchange → List Descriptor
  | ⟨.epollCreate _, .ok fd, _⟩ => ifOpen fd
  | ⟨.kqueueCreate, .ok fd, _⟩ => ifOpen fd
  | _ => []

/-- The descriptors of a channel that a call created. -/
def channel : Exchange → List Descriptor
  | ⟨.eventfd .., .ok fd, _⟩ => ifOpen fd
  | ⟨.socketpair, .ok (reader, writer), _⟩ => ifOpen reader ++ ifOpen writer
  | _ => []

/-- Whether a call created a ring. -/
def makesRing : Exchange → Bool
  | ⟨.ringCreate .., .ok _, _⟩ => true
  | _ => false

/-- Whether a call changed registrations, as far as its answer says. -/
def registers : Exchange → Bool
  | ⟨.epollControl .., .ok _, _⟩ => true
  | ⟨.epollControl .., .error code, _⟩ => code == Code.success
  | ⟨.keventChange .., .ok receipts, _⟩ => (verdict receipts).all (·.data.toInt32 == Code.success)
  | ⟨.keventChange .., .error code, _⟩ => code == Code.success
  | _ => false

/-- The descriptor that a call closed. -/
def closed : Exchange → List Descriptor
  | ⟨.close fd, _, _⟩ => [fd]
  | _ => []

/-- Whether a call took a ring down. -/
def takesDown : Exchange → Bool
  | ⟨.ringExit _, _, _⟩ => true
  | _ => false

theorem queue_eq_nil {x : Exchange} (h : x.call.begins = false) : x.queue = [] := by
  obtain ⟨c, reply, t⟩ := x
  cases c <;> first | rfl | cases h

theorem makesRing_eq_false {x : Exchange} (h : x.call.begins = false) : x.makesRing = false := by
  obtain ⟨c, reply, t⟩ := x
  cases c <;> first | rfl | cases h

theorem channel_eq_nil {x : Exchange} (h : x.call.equips = false) : x.channel = [] := by
  obtain ⟨c, reply, t⟩ := x
  cases c <;> first | rfl | cases h

/-- The first call of a backend has nothing to do with its channel, and gives nothing back. -/
theorem of_begins {x : Exchange} (h : x.call.begins = true) :
    x.channel = [] ∧ x.registers = false ∧ x.call.ends = false := by
  obtain ⟨c, reply, t⟩ := x
  cases c <;> first | exact ⟨rfl, rfl, rfl⟩ | cases h

end Exchange

/-! ## Lives -/

/-- The calls of a backend's life, one part after the other. -/
structure Life where
  /-- Creates what the backend polls on and its channel, and registers the channel. -/
  opening : List Exchange
  /-- Carries out operations. -/
  running : List Exchange
  /-- Takes the registration of the channel back. -/
  detaching : List Exchange
  /-- Gives everything up. -/
  closing : List Exchange

namespace Life

/-- All calls of a life. -/
def calls (l : Life) : List Exchange := l.opening ++ l.running ++ l.detaching ++ l.closing

/-- Nothing that the kernel handed out in a life is kept at its end, and nothing is given back twice. -/
structure Settled (l : Life) : Prop where
  /-- A life begins with the creation of what the backend polls on, and nothing like that is created later in it. -/
  begins : ∃ x xs, l.opening = x :: xs ∧ x.call.begins = true ∧ ∀ y ∈ xs, y.call.begins = false
  /-- Nothing is given back before the end. -/
  keeps : ∀ x ∈ l.opening, x.call.ends = false
  inert : ∀ x ∈ l.running ++ l.detaching, x.call.isInert = true
  ends : ∀ x ∈ l.closing, x.call.ends = true
  /-- What was handed out is closed, each descriptor once, and nothing else is: first the descriptors of the channel. -/
  closed : l.closing.flatMap Exchange.closed = l.opening.flatMap Exchange.channel ++ l.opening.flatMap Exchange.queue
  /-- A ring is taken down once if it was created. -/
  takenDown : l.closing.countP Exchange.takesDown = l.opening.countP Exchange.makesRing
  /-- The registration of the channel is taken back just if it was made. -/
  detached : l.detaching ≠ [] ↔ ∃ x ∈ l.opening, x.registers = true
  withdraws : ∀ y ∈ l.detaching, ∃ x ∈ l.opening, x.registers = true ∧ y.call.Withdraws x.call

end Life

/-! ## Equipment -/

/-- Calls that all ask for the same change of registrations, and whether it was made, as their code says. -/
structure Asked (c : Call) (code : Code) (xs : List Exchange) : Prop where
  ne_nil : xs ≠ []
  call : ∀ x ∈ xs, x.call = c
  registers : (∃ x ∈ xs, x.registers = true) ↔ code = Code.success

/-- After its first call, the opening of a backend hands out the descriptors of a channel and nothing else. Its
registration is one that the given call, if any, takes back. -/
structure Equipped (fds : List Descriptor) (withdrawal : Option Call) (xs : List Exchange) : Prop where
  begins : ∀ x ∈ xs, x.call.begins = false
  keeps : ∀ x ∈ xs, x.call.ends = false
  channel : xs.flatMap Exchange.channel = fds
  detached : withdrawal = none → ∀ x ∈ xs, x.registers = false
  attached : ∀ c, withdrawal = some c → ∃ x ∈ xs, x.registers = true ∧ c.Withdraws x.call

namespace Equipped

variable {fds : List Descriptor} {withdrawal : Option Call} {xs ys : List Exchange}

theorem nil : Equipped [] none [] :=
  ⟨List.forall_mem_nil _, List.forall_mem_nil _, rfl, fun _ => List.forall_mem_nil _, fun _ h => nomatch h⟩

/-- One call that does not register anything. -/
theorem singleton {x : Exchange} (hb : x.call.begins = false) (hk : x.call.ends = false)
    (hr : x.registers = false) : Equipped x.channel none [x] where
  begins := List.forall_mem_singleton.2 hb
  keeps := List.forall_mem_singleton.2 hk
  channel := List.flatMap_singleton _ _
  detached _ := List.forall_mem_singleton.2 hr
  attached _ h := nomatch h

/-- Files that are set up. -/
theorem of_isSetUp (h : ∀ x ∈ xs, x.call.isSetUp = true) : Equipped [] none xs := by
  have hx : ∀ x ∈ xs, x.call.begins = false ∧ x.call.ends = false ∧ x.channel = [] ∧ x.registers = false := by
    intro x hx
    have hs := h x hx
    obtain ⟨c, reply, t⟩ := x
    cases c <;> first | exact ⟨rfl, rfl, rfl, rfl⟩ | cases hs
  exact ⟨fun x h => (hx x h).1, fun x h => (hx x h).2.1, List.flatMap_eq_nil_iff.2 fun x h => (hx x h).2.2.1,
    fun _ x h => (hx x h).2.2.2, fun _ h => nomatch h⟩

/-- Nothing was registered in what comes first. -/
theorem append {fds' : List Descriptor} (h : Equipped fds none xs) (h' : Equipped fds' withdrawal ys) :
    Equipped (fds ++ fds') withdrawal (xs ++ ys) where
  begins := List.forall_mem_append.2 ⟨h.begins, h'.begins⟩
  keeps := List.forall_mem_append.2 ⟨h.keeps, h'.keeps⟩
  channel := by rw [List.flatMap_append, h.channel, h'.channel]
  detached hn := List.forall_mem_append.2 ⟨h.detached rfl, h'.detached hn⟩
  attached c hc := by
    obtain ⟨x, hx, hr⟩ := h'.attached c hc
    exact ⟨x, List.mem_append_right _ hx, hr⟩

/-- Registering a channel completes the equipment, whether it succeeds or not. -/
theorem register {c c' : Call} {code : Code} (h : Equipped fds none xs) (hc : c'.Withdraws c) (hr : Asked c code ys) :
    Equipped fds (if code = Code.success then some c' else none) (xs ++ ys) := by
  have hys := hr.call
  have hquiet : c.begins = false ∧ c.ends = false ∧ c.equips = false := by
    cases hc <;> exact ⟨rfl, rfl, rfl⟩
  rw [← List.append_nil fds]
  refine h.append ⟨fun y hy => hys y hy ▸ hquiet.1, fun y hy => hys y hy ▸ hquiet.2.1, ?_, fun hn y hy => ?_,
    fun d hd => ?_⟩
  · exact List.flatMap_eq_nil_iff.2 fun y hy => Exchange.channel_eq_nil (hys y hy ▸ hquiet.2.2)
  · refine Bool.eq_false_iff.2 fun hreg => ?_
    rw [if_pos (hr.registers.1 ⟨y, hy, hreg⟩)] at hn
    cases hn
  · obtain ⟨hcode, hd⟩ : code = Code.success ∧ c' = d := by simpa using hd
    obtain ⟨y, hy, hreg⟩ := hr.registers.2 hcode
    exact ⟨y, hy, hreg, hd ▸ hys y hy ▸ hc⟩

end Equipped

/-! ## Dues -/

/-- What a backend has to give back: descriptors, in the order in which they are closed, a ring, and a registration,
which some call takes back. -/
structure Dues where
  held : List Descriptor := []
  ring : Bool := false
  withdrawal : Option Call := none

namespace Dues

/-- The calls that opened a backend left it with its dues: the first one handed out what it polls on, and the others
are its equipment. -/
inductive Incurred : Dues → List Exchange → Prop
  | cons {x : Exchange} {xs : List Exchange} {fds : List Descriptor} {withdrawal : Option Call}
    (hx : x.call.begins = true) (h : Equipped fds withdrawal xs) :
    Incurred { held := fds ++ x.queue, ring := x.makesRing, withdrawal } (x :: xs)

/-- Calls that give back descriptors in order, and a ring or none. -/
structure Closes (fds : List Descriptor) (ring : Bool) (xs : List Exchange) : Prop where
  ends : ∀ x ∈ xs, x.call.ends = true
  closed : xs.flatMap Exchange.closed = fds
  takenDown : xs.countP Exchange.takesDown = ring.toNat

/-- The calls that gave a backend up paid its dues: those that took a registration back, and those that closed. -/
structure Paid (d : Dues) (detaching closing : List Exchange) : Prop where
  withdrawn : detaching ≠ [] ↔ d.withdrawal.isSome = true
  withdrawal : ∀ x ∈ detaching, d.withdrawal = some x.call
  closes : Closes d.held d.ring closing

namespace Closes

theorem nil : Closes [] false [] := ⟨List.forall_mem_nil _, rfl, rfl⟩

theorem append {fds fds' : List Descriptor} {ring : Bool} {xs ys : List Exchange} (h : Closes fds false xs)
    (h' : Closes fds' ring ys) : Closes (fds ++ fds') ring (xs ++ ys) where
  ends := List.forall_mem_append.2 ⟨h.ends, h'.ends⟩
  closed := by rw [List.flatMap_append, h.closed, h'.closed]
  takenDown := by rw [List.countP_append, h.takenDown, h'.takenDown, Bool.toNat_false, Nat.zero_add]

end Closes

namespace Incurred

variable {d : Dues} {xs : List Exchange}

theorem held (h : d.Incurred xs) : d.held = xs.flatMap Exchange.channel ++ xs.flatMap Exchange.queue := by
  cases h with
  | cons hx he =>
    have hqueue := List.flatMap_eq_nil_iff.2 fun y hy => Exchange.queue_eq_nil (he.begins y hy)
    simp [(Exchange.of_begins hx).1, he.channel, hqueue]

theorem ring (h : d.Incurred xs) : xs.countP Exchange.makesRing = d.ring.toNat := by
  cases h with
  | @cons x xs _ _ hx he =>
    have hrings : xs.countP Exchange.makesRing = 0 :=
      List.countP_eq_zero.2 fun y hy => by simp [Exchange.makesRing_eq_false (he.begins y hy)]
    rw [List.countP_cons, hrings]
    cases x.makesRing <;> rfl

/-- The registration of the channel is the one that is to be taken back. -/
theorem attached (h : d.Incurred xs) {c : Call} (hc : d.withdrawal = some c) :
    ∃ x ∈ xs, x.registers = true ∧ c.Withdraws x.call := by
  cases h with
  | cons hx he =>
    obtain ⟨x, hx, hr⟩ := he.attached c hc
    exact ⟨x, List.mem_cons_of_mem _ hx, hr⟩

theorem detached (h : d.Incurred xs) (hn : d.withdrawal = none) : ∀ x ∈ xs, x.registers = false := by
  cases h with
  | cons hx he => exact List.forall_mem_cons.2 ⟨(Exchange.of_begins hx).2.1, he.detached hn⟩

end Incurred

/-- **Settlement.** A life is settled whose opening incurred the dues that its end paid, if nothing was handed out or
given back in between. -/
theorem settled {d : Dues} {opening running detaching closing : List Exchange} (h : d.Incurred opening)
    (hrunning : ∀ x ∈ running, x.call.isInert = true) (hp : d.Paid detaching closing) :
    Life.Settled ⟨opening, running, detaching, closing⟩ where
  begins := by
    cases h with
    | cons hx he => exact ⟨_, _, rfl, hx, he.begins⟩
  keeps := by
    cases h with
    | cons hx he => exact List.forall_mem_cons.2 ⟨(Exchange.of_begins hx).2.2, he.keeps⟩
  inert := List.forall_mem_append.2 ⟨hrunning, fun y hy => by
    obtain ⟨x, -, -, hw⟩ := h.attached (hp.withdrawal y hy)
    exact hw.isInert⟩
  ends := hp.closes.ends
  closed := hp.closes.closed.trans h.held
  takenDown := hp.closes.takenDown.trans h.ring.symm
  detached := by
    rw [hp.withdrawn]
    refine ⟨fun hw => ?_, fun ⟨x, hx, hr⟩ => ?_⟩
    · obtain ⟨c, hc⟩ := Option.isSome_iff_exists.1 hw
      obtain ⟨x, hx, hr, -⟩ := h.attached hc
      exact ⟨x, hx, hr⟩
    · refine Option.isSome_iff_ne_none.2 fun hn => ?_
      rw [h.detached hn x hx] at hr
      cases hr
  withdraws y hy := h.attached (hp.withdrawal y hy)

end Dues

end Vigil
