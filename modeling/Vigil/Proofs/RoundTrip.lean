import Vigil.Proofs.Lifetime.Backends
import Vigil.Proofs.RingPoller.Staleness
import Vigil.Replay

/-!
# Round trips

Interest goes to the kernel as the mask of a poll set's entry, as the mask of a poll request, or as the changes of two
filters. It comes back as a record, with a mask or a filter, and the table that reads the record is not the one that
stated the interest.

- `Event.interest_and_ready`: of the bits that are stated for an event and the faults, those that are read as a
  direction are the conditions of that direction, if it is wanted, and the faults. All that is said about masks comes
  from there;
- `Record.Reports`: what a record has to say of an event, given its mask, with `reports_poll` for all masks within what
  was stated. `Kevent.Reports` is the same for filters;
- `reports_round_trip`: what each kind of backend asks of the kernel for an event, and what it makes of the answers.
-/

namespace Vigil

variable {K : Kernel}

/-! ## Masks -/

namespace Mask

/-- The conditions that are reported without being asked for. -/
def fault : Mask := error ||| hangup

/-- Each bit of a mask is one of another mask. -/
def Within (m s : Mask) : Prop := m &&& s = m

instance (m s : Mask) : Decidable (m.Within s) := inferInstanceAs (Decidable (m &&& s = m))

theorem and_or_ne_zero (m a b : Mask) : m &&& (a ||| b) ≠ 0 ↔ m &&& a ≠ 0 ∨ m &&& b ≠ 0 := by
  have h : m &&& (a ||| b) = (m &&& a) ||| (m &&& b) := UInt32.toBitVec_inj.1 BitVec.and_or_distrib_left
  rw [h, Ne, UInt32.or_eq_zero_iff, Decidable.not_and_iff_or_not]

namespace Within

variable {m s t ready conditions : Mask} {wanted : Bool}

theorem and_eq (h : m.Within s) (t : Mask) : m &&& t = m &&& (s &&& t) := by
  rw [← UInt32.and_assoc, h]

theorem trans (h : m.Within s) (h' : s.Within t) : m.Within t := by
  unfold Within
  rw [h.and_eq, h', h]

/-- A direction is ready under a mask just if there is a fault, or the direction is wanted and meets one of its
conditions. -/
theorem ready_iff (h : m.Within s) (hs : s &&& ready = (if wanted then conditions else 0) ||| fault) :
    m &&& ready ≠ 0 ↔ m &&& fault ≠ 0 ∨ wanted = true ∧ m &&& conditions ≠ 0 := by
  rw [h.and_eq, hs, and_or_ne_zero, or_comm]
  cases wanted <;> simp

/-- Without a fault, a direction that is ready is wanted. -/
theorem wanted_of_ready (h : m.Within s) (hs : s &&& ready = (if wanted then conditions else 0) ||| fault)
    (hfault : m &&& fault = 0) (hready : m &&& ready ≠ 0) : wanted = true := by
  rcases (h.ready_iff hs).1 hready with hf | ⟨hwanted, -⟩
  · exact absurd hfault hf
  · exact hwanted

end Within

end Mask

namespace Event

/-- The conditions that are to be asked for: data, urgent data and the peer's end of file for reading, and room for
writing. -/
def asked (e : Event) : Mask := (if e.readable then 0x2003 else 0) ||| (if e.writable then 0x4 else 0)

theorem conditions_eq_asked (e : Event) : e.conditions = e.asked := by
  have h : ∀ readable writable, Event.conditions ⟨0, readable, writable⟩ = Event.asked ⟨0, readable, writable⟩ := by
    decide
  exact h e.readable e.writable

theorem interest_eq_asked (e : Event) (mode : Mode) : e.interest mode = e.asked ||| mode.bits := by
  rw [interest_eq, conditions_eq_asked]

/-- Of what is stated for an event, and of faults, each direction sees its own conditions, if it is wanted, and the
faults. -/
theorem interest_and_ready (e : Event) (mode : Mode) :
    let s := e.interest mode ||| Mask.fault
    s &&& Mask.readReady = (if e.readable then Mask.readInterest else 0) ||| Mask.fault ∧
      s &&& Mask.writeReady = (if e.writable then Mask.output else 0) ||| Mask.fault := by
  -- the key plays no part
  have h : ∀ readable writable, let s := Event.interest ⟨0, readable, writable⟩ mode ||| Mask.fault
      s &&& Mask.readReady = (if readable then Mask.readInterest else 0) ||| Mask.fault ∧
        s &&& Mask.writeReady = (if writable then Mask.output else 0) ||| Mask.fault := by
    cases mode <;> decide
  exact h e.readable e.writable

/-- The conditions of an event, and faults, are within what is stated for it in any mode. -/
theorem conditions_within (e : Event) (mode : Mode) :
    (e.conditions ||| Mask.fault).Within (e.interest mode ||| Mask.fault) := by
  have h : ∀ readable writable, (Event.conditions ⟨0, readable, writable⟩ ||| Mask.fault).Within
      (Event.interest ⟨0, readable, writable⟩ mode ||| Mask.fault) := by
    cases mode <;> decide
  exact h e.readable e.writable

/-- Each condition of an event, and each fault, is read as some direction. -/
theorem conditions_within_ready (e : Event) :
    (e.conditions ||| Mask.fault).Within (Mask.readReady ||| Mask.writeReady) := by
  have h : ∀ readable writable, (Event.conditions ⟨0, readable, writable⟩ ||| Mask.fault).Within
      (Mask.readReady ||| Mask.writeReady) := by
    decide
  exact h e.readable e.writable

end Event

/-! ## Records -/

/-- A record with a mask says of an event what the mask does: its key, and the directions that are wanted and meet one
of their conditions. A fault is reported as both directions. -/
structure Record.Reports (r : Record) (e : Event) (m : Mask) : Prop where
  notify : r.isNotify = false
  key : r.event.key = e.key
  readable : r.event.readable = true ↔ m &&& Mask.fault ≠ 0 ∨ e.readable = true ∧ m &&& Mask.readInterest ≠ 0
  writable : r.event.writable = true ↔ m &&& Mask.fault ≠ 0 ∨ e.writable = true ∧ m &&& Mask.output ≠ 0
  /-- Without a fault, no direction is reported that is not wanted. -/
  wanted : m &&& Mask.fault = 0 →
    (r.event.readable = true → e.readable = true) ∧ (r.event.writable = true → e.writable = true)
  /-- A mask that holds a condition is reported as some direction. The bits of modes are no conditions. -/
  isAny : m ≠ 0 → m.Within (e.conditions ||| Mask.fault) → r.event.isAny = true

/-- A mask reports what was asked for, if it is within that and faults. -/
theorem reports_poll {e : Event} {mode : Mode} {m : Mask} (hkey : e.key ≠ notifyKey)
    (h : m.Within (e.interest mode ||| Mask.fault)) : (Record.poll ⟨m, e.key⟩).Reports e m := by
  obtain ⟨hread, hwrite⟩ := e.interest_and_ready mode
  have hreadable : m &&& Mask.readReady ≠ 0 ↔ _ := h.ready_iff hread
  have hwritable : m &&& Mask.writeReady ≠ 0 ↔ _ := h.ready_iff hwrite
  refine ⟨beq_eq_false_iff_ne.2 hkey, rfl, bne_iff_ne.trans hreadable, bne_iff_ne.trans hwritable, fun hfault => ?_,
    fun hne hm => ?_⟩
  · refine ⟨fun hr => ?_, fun hw => ?_⟩
    · exact h.wanted_of_ready hread hfault (bne_iff_ne.1 hr)
    · exact h.wanted_of_ready hwrite hfault (bne_iff_ne.1 hw)
  · have hready : m &&& (Mask.readReady ||| Mask.writeReady) ≠ 0 := by
      rwa [hm.trans e.conditions_within_ready]
    refine Bool.or_eq_true_iff.2 ?_
    rcases (Mask.and_or_ne_zero ..).1 hready with hr | hw
    · exact .inl (bne_iff_ne.2 hr)
    · exact .inr (bne_iff_ne.2 hw)

/-- A fired filter says its own direction of an event, under the event's key. The end of a file is reported as both
directions. -/
structure Kevent.Reports (k : Kevent) (e : Event) : Prop where
  notify : (Record.filter k).isNotify = false
  key : (Record.filter k).event.key = e.key
  read : k.filter = Kevent.read → (Record.filter k).event = ⟨e.key, true, k.flags &&& Kevent.endOfFile != 0⟩
  write : k.filter = Kevent.write → (Record.filter k).event = .writableOnly e.key

theorem reports_filter {e : Event} {k : Kevent} (hkey : e.key ≠ notifyKey) (h : k.udata = e.key) : k.Reports e where
  notify := by
    rw [← h] at hkey
    exact beq_eq_false_iff_ne.2 hkey
  key := by
    rw [← h]
    show (Record.ofFilter k).key = k.udata
    unfold Record.ofFilter
    split
    · rfl
    · split
      · rfl
      · split <;> rfl
  read hf := by rw [Record.event, Record.ofFilter, if_pos hf, h]
  write hf := by
    rw [Record.event, Record.ofFilter, if_neg (by rw [hf]; decide), if_pos hf, h]

/-! ## Filters -/

/-- The filters that the changes for an event add are those of the directions that are wanted. -/
theorem Event.added_changes (e : Event) (fd : Descriptor) (mode : Mode) (filter : Int16) :
    (∃ c ∈ e.changes fd mode, c.filter = filter ∧ c.flags &&& Kevent.add ≠ 0) ↔
      filter = Kevent.read ∧ e.readable = true ∨ filter = Kevent.write ∧ e.writable = true := by
  have hadd (f : Int16) (wanted : Bool) :
      (Kevent.change fd f wanted mode e.key).flags &&& Kevent.add ≠ 0 ↔ wanted = true := by
    rw [← bne_iff_ne, Kevent.flags_change_add]
  simp only [changes, List.mem_cons, List.not_mem_nil, or_false, or_and_right, exists_or, exists_eq_left, hadd]
  exact or_congr (and_congr eq_comm .rfl) (and_congr eq_comm .rfl)

theorem Event.udata_changes {e : Event} {fd : Descriptor} {mode : Mode} {c : Kevent} (h : c ∈ e.changes fd mode) :
    c.udata = e.key := by
  simp only [changes, List.mem_cons, List.not_mem_nil, or_false] at h
  rcases h with rfl | rfl <;> rfl

/-! ## Completions -/

namespace RingPoller

/-- The completion is one of the request that a descriptor is armed with. -/
structure Sighting.Concerns (x : Sighting K) (fd : Descriptor) : Prop where
  ne_ignoreToken : x.completion.token ≠ ignoreToken
  ne_wakeToken : x.completion.token ≠ wakeToken
  owner : x.poller.owners.get? x.completion.token = some fd

/-- The result of a request becomes a record, unless the request was canceled. -/
theorem Sighting.Concerns.record {x : Sighting K} {fd : Descriptor} {r : Registration} (h : x.Concerns fd)
    (hr : x.poller.registrations.get? fd = some r) (hc : x.completion.result ≠ -Code.canceled) :
    (x.poller.consume x.completion).record = some (recordOf r x.completion.result) := by
  unfold consume
  rw [if_neg h.ne_ignoreToken, if_neg h.ne_wakeToken, h.owner]
  dsimp only
  rw [hr]
  dsimp only
  rw [if_neg hc]

/-- What a run has armed a descriptor with watches the event that was registered last. -/
theorem Sighting.Concerns.registered {capacity : Nat} {s : K.State} {before : List Operation} {o : Operation}
    {x : Sighting K} (hx : x ∈ (((Moment.created capacity s).run before).walksOf o).flatten) {fd : Descriptor}
    (h : x.Concerns fd) {e : Event} (he : (Moment.created capacity s).latest fd before = some e) :
    ∃ r, x.poller.registrations.get? fd = some r ∧ r.event = e ∧ request fd r x.completion.token ∈ x.prepared := by
  have hbefore := sound_run capacity s before
  have hs : x.ledger.Sound := (account_after _ o hbefore).sound_sighting hbefore hx
  obtain ⟨r, hr, ht⟩ := hs.owner _ fd h.ne_ignoreToken h.owner
  have hevent := latest_sighting (ledger_created capacity s) hx hr
  rw [he] at hevent
  refine ⟨r, hr, (Option.some.inj hevent).symm, ?_⟩
  have hqueued := hs.queued fd r hr (ht ▸ h.ne_ignoreToken)
  rwa [ht] at hqueued

/-- A request that failed is reported as both directions. -/
theorem event_recordOf_of_neg (r : Registration) {result : Int32} (h : result < 0) :
    (recordOf r result).event = Event.all r.event.key := by
  rw [recordOf, if_pos h]
  have hboth : (Mask.error &&& Mask.readReady != 0) = true ∧ (Mask.error &&& Mask.writeReady != 0) = true := by decide
  simp only [Record.event, hboth, Event.all]

/-- A request that did not fail reports what was asked for, if its result is within that and faults. -/
theorem reports_recordOf {r : Registration} {result : Int32} (hkey : r.event.key ≠ notifyKey) (h : 0 ≤ result)
    (hm : Mask.Within result.toUInt32 (r.event.conditions ||| Mask.fault)) :
    (recordOf r result).Reports r.event result.toUInt32 := by
  rw [recordOf, if_neg (Int32.not_lt.2 h)]
  exact reports_poll hkey (hm.trans (r.event.conditions_within .level))

end RingPoller

/-! ## The round trip -/

open RingPoller (Moment Operation request)

/-- **Round trips.** Let an event be registered in any mode, under any key but that of the wake-up channel.

A poll set asks the kernel for an entry with the conditions of the event (`Event.asked`) and the bits of the mode, whether
the registration is added or changed, and each mask within what the entry asks for and faults reports the event.

On a polled ring, take any run, and any completion of the request that a descriptor is armed with, where the event is
the one that was registered for the descriptor last. The request asks for the conditions of the event as well. If it did
not fail, and its result is within these conditions and faults, then the record reports the event; if it failed without
being canceled, then the record has both directions, under the key of the event.

A filter queue asks for changes that add the filters of the directions that are wanted, and each filter that fires with
what one of these changes left with it reports the event. -/
theorem reports_round_trip (e : Event) (mode : Mode) (hkey : e.key ≠ notifyKey) :
    (∀ (K : Kernel) (p : Epoll) (op : Control) (fd : Descriptor),
      Shows (K := K) [] (p.register op fd e mode) fun _ xs => xs ≠ [] ∧ ∀ x ∈ xs, ∃ entry,
        x.call = .epollControl p.fd op fd (some entry) ∧ entry.mask = e.asked ||| mode.bits ∧ entry.key = e.key ∧
          ∀ m : Mask, m.Within (entry.mask ||| Mask.fault) → (Record.poll ⟨m, entry.key⟩).Reports e m) ∧
    (∀ (K : Kernel) (capacity : Nat) (s : K.State) (before : List Operation) (o : Operation),
      let m₀ := Moment.created capacity s
      ∀ x ∈ ((m₀.run before).walksOf o).flatten, ∀ fd, x.Concerns fd → m₀.latest fd before = some e →
        let result := x.completion.result
        let record := (x.poller.consume x.completion).record
        (∃ r, x.poller.registrations.get? fd = some r ∧ r.event = e ∧
          request fd r x.completion.token ∈ x.prepared ∧
          request fd r x.completion.token =
            if r.mode = .edge then .pollMultishot fd e.asked x.completion.token
            else .pollAdd fd e.asked x.completion.token) ∧
        (0 ≤ result → Mask.Within result.toUInt32 (e.conditions ||| Mask.fault) →
          ∃ r, record = some r ∧ r.Reports e result.toUInt32) ∧
        (result < 0 → result ≠ -Code.canceled →
          ∃ r, record = some r ∧ r.isNotify = false ∧ r.event = Event.all e.key)) ∧
    ∀ (K : Kernel) (q : Kqueue) (fd : Descriptor),
      Shows (K := K) [] (q.modify fd e mode) fun _ xs => xs ≠ [] ∧ ∀ x ∈ xs, ∃ changes,
        x.call = .keventChange q.fd changes ∧
          (∀ filter, (∃ c ∈ changes, c.filter = filter ∧ c.flags &&& Kevent.add ≠ 0) ↔
            filter = Kevent.read ∧ e.readable = true ∨ filter = Kevent.write ∧ e.writable = true) ∧
          ∀ c ∈ changes, ∀ k : Kevent, k.udata = c.udata → k.Reports e := by
  refine ⟨fun K p op fd => ?_, fun K capacity s before o => ?_, fun K q fd => ?_⟩
  · refine (p.shows_register op fd e mode).mono fun code xs hxs => ⟨hxs.ne_nil, fun x hx => ?_⟩
    exact ⟨_, hxs.call x hx, e.interest_eq_asked mode, rfl, fun m hm => reports_poll hkey hm⟩
  · intro m₀ x hx fd hconcerns he result record
    obtain ⟨r, hr, rfl, hqueued⟩ := hconcerns.registered hx he
    refine ⟨⟨r, hr, rfl, hqueued, ?_⟩, fun h hm => ?_, fun h hc => ?_⟩
    · rw [request, r.event.conditions_eq_asked]
    · have hc : result ≠ -Code.canceled := by
        intro hc
        rw [hc] at h
        exact absurd h (by decide)
      exact ⟨_, hconcerns.record hr hc, RingPoller.reports_recordOf hkey h hm⟩
    · exact ⟨_, hconcerns.record hr hc, beq_eq_false_iff_ne.2 hkey, RingPoller.event_recordOf_of_neg r h⟩
  · refine (q.shows_modify fd e mode).mono fun code xs hxs => ⟨hxs.ne_nil, fun x hx => ?_⟩
    refine ⟨_, hxs.call x hx, e.added_changes fd mode, fun c hc k hk => ?_⟩
    exact reports_filter hkey (hk.trans (Event.udata_changes hc))

/-- Reading is watched for edges. A poll set reports urgent data with a hangup. A ring reports urgent data as something to
read, and then the failure of the same request as both directions. A filter queue reports the end of a file as both
directions. All is reported under the key that was registered. -/
theorem reports_round_trip_urgent :
    let e := Event.readableOnly 7
    let w := Replay.world {}
    let p : Epoll := { fd := 3 }
    let q : Kqueue := { fd := 3 }
    let script : Script Service Entry := [(.ringWait, { completions := [⟨2, 2, true⟩, ⟨2, -9, false⟩] })]
    let m₀ : Moment Replay.kernel := Moment.created 8 ({ script } : Replay)
    let before := [.add 5 e .edge]
    let o := .wait Buffer.empty none
    let sightings := ((m₀.run before).walksOf o).flatten
    e.key ≠ notifyKey ∧
      (∃ x ∈ (p.register .add 5 e .edge w).2.trace, ∃ entry, x.call = .epollControl 3 .add 5 (some entry) ∧
        entry.mask = 0x80002003 ∧
          (Record.poll ⟨Mask.priority ||| Mask.hangup, entry.key⟩).Reports e (Mask.priority ||| Mask.hangup)) ∧
      sightings.map (·.completion.result) = [2, -9] ∧
      (∀ x ∈ sightings,
        (x.completion.result = 2 → ∃ r, (x.poller.consume x.completion).record = some r ∧ r.Reports e Mask.priority) ∧
          (x.completion.result = -9 →
            ∃ r, (x.poller.consume x.completion).record = some r ∧ r.isNotify = false ∧ r.event = Event.all 7)) ∧
      ∃ x ∈ (q.modify 5 e .edge w).2.trace, ∃ changes, x.call = .keventChange 3 changes ∧
        ∃ c ∈ changes, c.filter = Kevent.read ∧ c.flags &&& Kevent.add ≠ 0 ∧
          (Record.filter { c with flags := Kevent.endOfFile }).event = Event.all 7 := by
  intro e w p q script m₀ before o sightings
  have hkey : e.key ≠ notifyKey := by decide
  obtain ⟨hset, hring, hqueue⟩ := reports_round_trip e .edge hkey
  refine ⟨hkey, ?_, by decide +kernel, fun x hx => ?_, ?_⟩
  · obtain ⟨x, hx, entry, hcall, hmask, -, hreports⟩ := (hset Replay.kernel p .add 5).exists_mem w
    exact ⟨x, hx, entry, hcall, hmask.trans (by decide), hreports _ (by rw [hmask]; decide)⟩
  · have hlatest : m₀.latest 5 before = some e := by decide +kernel
    have howned : ∀ x ∈ sightings, x.completion.token = 2 ∧ x.poller.owners.get? x.completion.token = some 5 := by
      decide +kernel
    obtain ⟨htoken, howner⟩ := howned x hx
    have hconcerns : x.Concerns 5 := ⟨by rw [htoken]; decide, by rw [htoken]; decide, howner⟩
    obtain ⟨-, hreports, hfails⟩ := hring Replay.kernel 8 { script } before o x hx 5 hconcerns hlatest
    refine ⟨fun hresult => ?_, fun hresult => ?_⟩
    · rw [hresult] at hreports
      exact hreports (by decide) (by decide)
    · rw [hresult] at hfails
      exact hfails (by decide) (by decide)
  · obtain ⟨x, hx, changes, hcall, hadded, hreports⟩ := (hqueue Replay.kernel q 5).exists_mem w
    obtain ⟨c, hc, hfilter, hadd⟩ := (hadded Kevent.read).2 (.inl ⟨rfl, rfl⟩)
    have hend : (Kevent.endOfFile &&& Kevent.endOfFile != 0) = true := by decide
    have hread := (hreports c hc { c with flags := Kevent.endOfFile } rfl).read hfilter
    rw [hend] at hread
    exact ⟨x, hx, changes, hcall, c, hc, hfilter, hadd, hread⟩

end Vigil
