import Vigil.Proofs.Wait.Resumption
import Vigil.Replay

/-!
# How a wait on a ring ends

A wait on a ring ends at its last turn in one of two ways (`Ending`): the kernel answers with an error, which leaves no
records, or completions arrive, and if they give no record, then the clock has reached the deadline once they are
consumed. This is kept from round to round (`ending_round`), so it is true of the wait (`ending_wait`).

* **Stale completions do not count** (`wait_expires`): a wait ends without a record only when its time is over, and as
  soon as it is. Completions that give no record neither end it before, nor keep it from ending then.
-/

namespace Vigil

variable {K : Kernel}

/-! ## Endings -/

/-- The error that a wait on a ring was answered with. -/
def Exchange.waitError? : Exchange → Option Code
  | ⟨.ringWait .., .error code, _⟩ => some code
  | _ => none

/-- The time that a wait on a ring was given, if it was not to wait for ever. -/
def Call.limit? : Call → Option Timespec
  | .ringWait _ limit => limit
  | _ => none

/-- If the kernel says that the time is over, then all of it has passed that the call was given. -/
def Turn.Punctual (t : Turn) : Prop :=
  ∀ limit ∈ t.exchange.call.limit?, t.exchange.waitError? = some Code.timerExpired →
    t.asked + (limit.seconds * nanosPerSecond + limit.nanos) ≤ t.exchange.time

instance (t : Turn) : Decidable t.Punctual :=
  inferInstanceAs (Decidable (∀ limit ∈ t.exchange.call.limit?, _ → _))

/-- How the last turn of a wait that began at `start` ends it: with a code, the records in the buffer, and the clock at
the end. -/
inductive Ending (timeout : Timeout) (start : Int) : Turn → Code → List Record → Int → Prop
  /-- The kernel answered with an error; that the time is over is none to the caller. -/
  | failed {asked time : Int} {queued : Nat} {rest : Option Timespec} {code : Code} (h : code ≠ Code.interrupted) :
      Ending timeout start ⟨asked, .ringWait queued rest, .error code, time⟩
        (if code = Code.timerExpired then Code.success else code) [] time
  /-- Completions arrived. -/
  | arrived {asked time stop : Int} {queued : Nat} {rest : Option Timespec} {cs : List Completion} {rs : List Record}
      (h : rs = [] → ∃ t, timeout = some t ∧ start + t ≤ stop) :
      Ending timeout start ⟨asked, .ringWait queued rest, .ok cs, time⟩ Code.success rs stop

namespace Ending

variable {timeout : Timeout} {start stop : Int} {last : Turn} {code : Code} {rs : List Record}

/-- Without a record, the kernel said that the time is over, or the clock had reached the deadline. -/
theorem expired (h : Ending timeout start last code rs stop) (hwhy : last.exchange.waitError? ≠ some Code.success)
    (hcode : code = Code.success) (hrs : rs = []) :
    last.exchange.waitError? = some Code.timerExpired ∨
      last.exchange.isArrival = true ∧ ∃ t, timeout = some t ∧ start + t ≤ stop := by
  cases h with
  | @failed asked time queued rest code hi =>
    refine .inl ?_
    split at hcode
    · rename_i he
      rw [he]
      rfl
    · exact absurd (congrArg some hcode) hwhy
  | arrived h => exact .inr ⟨rfl, h hrs⟩

/-- Without a timeout and without a record, the kernel answered with an error. -/
theorem failed_of_none (h : Ending none start last code rs stop) (hrs : rs = []) :
    ∃ code, last.exchange.waitError? = some code := by
  cases h with
  | failed hi => exact ⟨_, rfl⟩
  | arrived h =>
    obtain ⟨t, ht, -⟩ := h hrs
    cases ht

/-- If the kernel is punctual, then a wait without a record lasts for its timeout. -/
theorem lasts {t : Int} (h : Ending (some t) start last code rs stop)
    (hasks : last.exchange.call.Asks (Timeout.left (some t) (last.asked - start)) .ring)
    (hwhy : last.exchange.waitError? ≠ some Code.success) (hpunctual : last.Punctual) (hcode : code = Code.success)
    (hrs : rs = []) : start + t ≤ stop := by
  rcases h.expired hwhy hcode hrs with hexpired | ⟨-, u, hu, hle⟩
  · cases h with
    | @failed asked time queued rest code hi =>
      have hasks : Option.Rel Timespec.States rest (some (max 0 (t - (asked - start)))) := hasks
      cases hasks with
      | some hstates =>
        obtain ⟨hsum, -⟩ := hstates
        have hpassed := hpunctual _ rfl hexpired
        unfold nanosPerSecond at hpassed
        dsimp only at hpassed
        omega
    | arrived h => cases hexpired
  · cases hu
    exact hle

end Ending

namespace RingPoller

/-- The code that a wait returns. -/
def Progress.code : Progress → Code
  | .ended code => code
  | _ => Code.success

/-- An error that ends a wait leaves no records, and the clock as it was. -/
theorem ending_after_error (timeout : Timeout) (start asked : Int) (queued : Nat) (rest : Option Timespec) (s : Round)
    (code : Code) (v : World K) (hs : s.progress = .waiting) :
    let r := s.after (Deadline.after start timeout) (.error code) v
    r.1.progress ≠ .waiting →
      Ending timeout start ⟨asked, .ringWait queued rest, .error code, K.clock v.kernel⟩ r.1.progress.code
        r.1.buffer.raw (K.clock r.2.kernel) := by
  intro r hend
  have hi : code ≠ Code.interrupted := fun hi => hend ((Round.waiting_after_error _ s code v hs).2 hi)
  have hr : r = s.after (Deadline.after start timeout) (.error code) v := rfl
  rw [Round.after, Sys.ite_apply, Sys.ite_apply, if_neg hi] at hr
  have hending := @Ending.failed timeout start asked (K.clock v.kernel) queued rest code hi
  by_cases ht : code = Code.timerExpired
  · rw [if_pos ht] at hr hending
    rw [hr]
    exact hending
  · rw [if_neg ht] at hr hending
    rw [hr]
    exact hending

/-- Completions that end a wait without a record have been consumed when the clock has reached the deadline. -/
theorem ending_after_ok (timeout : Timeout) (start asked time : Int) (queued : Nat) (rest : Option Timespec) (s : Round)
    (cs : List Completion) (v : World K) :
    let r := s.after (Deadline.after start timeout) (.ok cs) v
    r.1.progress ≠ .waiting →
      Ending timeout start ⟨asked, .ringWait queued rest, .ok cs, time⟩ r.1.progress.code r.1.buffer.raw
        (K.clock r.2.kernel) := by
  intro r hend
  let h := ({ s.poller with ring := s.poller.ring.arrive cs } : RingPoller).harvest v
  let left := (Deadline.after start timeout).remaining (K.clock h.2.kernel)
  have hprogress : r.1.progress = if h.1.2.isEmpty && left ≠ 0 then .waiting else .filled := rfl
  by_cases hgo : (h.1.2.isEmpty && left ≠ 0) = true
  · exact absurd (hprogress.trans (if_pos hgo)) hend
  · rw [hprogress, if_neg hgo]
    refine .arrived fun hraw => ?_
    have htake : h.1.2.take Buffer.capacity = [] := (s.buffer.raw_fill_ofList h.1.2).symm.trans hraw
    have hempty : h.1.2 = [] := (List.take_eq_nil_iff.1 htake).resolve_left (by decide)
    have hleft : left = 0 := by
      by_contra hne
      exact hgo (by simp [hempty, hne])
    by_contra hnot
    refine (Deadline.remaining_after_ne_zero start (K.clock h.2.kernel) timeout).2 (fun t ht => ?_) hleft
    by_contra hlt
    refine hnot ⟨t, ht, ?_⟩
    show start + t ≤ K.clock h.2.kernel
    omega

/-- A round that ends a wait makes one turn, and ends it as this turn says. -/
theorem ending_round (timeout : Timeout) (start : Int) (s : Round) (w : World K) (hs : s.progress = .waiting) :
    let r := round (Deadline.after start timeout) s w
    r.1.progress ≠ .waiting → ∃ x ys, Passage w (x :: ys) r.2 ∧ x.call.isWait = true ∧
      (∀ y ∈ ys, y.call.isWait = false) ∧
      Ending timeout start ⟨K.clock w.kernel, x⟩ r.1.progress.code r.1.buffer.raw (K.clock r.2.kernel) := by
  rw [round_apply]
  have hp := Passage.called
    (.ringWait s.poller.ring.completed.length ((Deadline.after start timeout).timespec (K.clock w.kernel))) w
  generalize call _ w = r at hp ⊢
  obtain ⟨reply, v⟩ := r
  have hafter : Confined (K := K) (·.isWait = false) (s.after (Deadline.after start timeout) reply) :=
    (s.built_after (fun _ => rfl) (fun _ => rfl) _ _).confined
  obtain ⟨ys, hq, hys⟩ := (hafter v).passage
  intro r hend
  refine ⟨_, ys, hp.trans hq, rfl, hys, ?_⟩
  cases reply with
  | error code => exact ending_after_error timeout start _ _ _ s code v hs hend
  | ok cs => exact ending_after_ok timeout start _ _ _ _ s cs v hend

/-- What is left of a wait when its rounds are over is to tell of it. -/
theorem passage_rounds (p : RingPoller) (b : Buffer) (timeout : Timeout) (w : World K) :
    let v := w.noted (.wait p.fd timeout)
    let r := rounds (Deadline.after (K.clock v.kernel) timeout) ⟨p, b, .waiting⟩ v
    (p.wait b timeout w).1.1 = r.1.progress.code ∧ (p.wait b timeout w).1.2.2 = r.1.buffer ∧
      Passage r.2 [] (p.wait b timeout w).2 := by
  intro v r
  rw [wait_apply]
  dsimp only
  split
  · rename_i code hcode
    exact ⟨(congrArg Progress.code hcode).symm, rfl, .refl _⟩
  · rename_i hcode
    refine ⟨?_, rfl, .noted _ _⟩
    show Code.success = r.1.progress.code
    unfold Progress.code
    split
    · rename_i code he
      exact absurd he (hcode code)
    · rfl

/-- A wait makes a last turn, and ends as this turn says. -/
theorem ending_wait (p : RingPoller) (b : Buffer) (timeout : Timeout) (w : World K) :
    let start := K.clock w.kernel
    let r := p.wait b timeout w
    ∃ xs earlier last, Passage w xs r.2 ∧ turns start xs = earlier ++ [last] ∧
      Ending timeout start last r.1.1 r.1.2.2.raw (K.clock r.2.kernel) := by
  intro start
  let v := w.noted (.wait p.fd timeout)
  let d := Deadline.after start timeout
  let inv (s : Round) (u : World K) : Prop := ∃ xs, Passage w xs u ∧ (s.progress ≠ .waiting →
    ∃ earlier last, turns start xs = earlier ++ [last] ∧
      Ending timeout start last s.progress.code s.buffer.raw (K.clock u.kernel))
  have hround : ∀ s u, inv s u → s.progress = .waiting → inv (round d s u).1 (round d s u).2 := by
    rintro s u ⟨xs, hp, -⟩ hs
    have hconfined : Confined (K := K) (fun _ => True) (round d s) := (built_round (fun _ _ => trivial) d s).confined
    by_cases hw : (round d s u).1.progress = .waiting
    · obtain ⟨ys, hq, -⟩ := (hconfined u).passage
      exact ⟨xs ++ ys, hp.trans hq, fun hend => absurd hw hend⟩
    · obtain ⟨x, ys, hq, hwait, hys, hending⟩ := ending_round timeout start s u hs hw
      refine ⟨xs ++ x :: ys, hp.trans hq, fun _ => ⟨turns start xs, ⟨K.clock u.kernel, x⟩, ?_, hending⟩⟩
      rw [turns_append, turns_cons hwait, turns_eq_nil hys, hp.clock]
  have hfirst : inv ⟨p, b, .waiting⟩ v :=
    ⟨[], .noted (.backend .ring (.wait p.fd timeout)) w, fun hend => absurd rfl hend⟩
  obtain ⟨⟨xs, hp, hlast⟩, hend⟩ := rounds_induct hfirst hround
  obtain ⟨earlier, last, hturns, hending⟩ := hlast hend
  obtain ⟨hcode, hbuffer, hq⟩ := p.passage_rounds b timeout w
  have hpassage := hp.trans hq
  rw [List.append_nil] at hpassage
  refine ⟨xs, earlier, last, hpassage, hturns, ?_⟩
  rw [hcode, hbuffer, hq.clock]
  exact hending

/-! ## Waits without a record -/

/-- Completions that arrived are no interruption. -/
theorem isInterrupted_of_isArrival {x : Exchange} (h : x.isArrival = true) : x.isInterrupted = false := by
  obtain ⟨c, reply, time⟩ := x
  cases c with
  | ringWait queued rest =>
    cases reply with
    | error code => cases h
    | ok cs => rfl
  | _ => cases h

/-- **Expiry.** Whatever the state of a ring, the buffer, the timeout and the kernel, a wait ends with a last turn:

- if it succeeds without a record, then this turn was answered with the news that the time is over, or it brought
  completions, and the clock had reached the deadline once they were consumed. An error is taken to say what it is, so
  none has the number of success;
- without a timeout and without a record, this turn was answered with an error;
- a turn that brought completions is the last one if the clock has reached the deadline once they are consumed;
- if it succeeds without a record, and the news that the time is over comes only when the time has passed that the call
  was given, then the wait has lasted for its timeout. -/
theorem wait_expires (p : RingPoller) (b : Buffer) (timeout : Timeout) (w : World K) :
    let start := K.clock w.kernel
    let r := p.wait b timeout w
    let stop := K.clock r.2.kernel
    ∃ xs earlier last, r.2.trace = w.trace ++ xs ∧ turns start xs = earlier ++ [last] ∧
      (last.exchange.waitError? ≠ some Code.success → r.1.1 = Code.success → r.1.2.2.raw = [] →
        last.exchange.waitError? = some Code.timerExpired ∨
          last.exchange.isArrival = true ∧ ∃ t, timeout = some t ∧ start + t ≤ stop) ∧
      (timeout = none → r.1.2.2.raw = [] → ∃ code, last.exchange.waitError? = some code) ∧
      (∀ i u t, (turns start xs)[i]? = some u → u.exchange.isArrival = true → timeout = some t →
        start + t ≤ ((turns start xs)[i + 1]?.map Turn.asked).getD stop → i + 1 = (turns start xs).length) ∧
      (last.exchange.waitError? ≠ some Code.success → last.Punctual → r.1.1 = Code.success → r.1.2.2.raw = [] →
        ∀ t, timeout = some t → t ≤ stop - start) := by
  intro start r stop
  obtain ⟨xs, earlier, last, hp, hturns, hending⟩ := p.ending_wait b timeout w
  obtain ⟨ys, hq, hasking, hresumes, -⟩ := p.resumed_wait b timeout w
  obtain rfl : ys = xs := List.append_cancel_left (hq.trace.symm.trans hp.trace)
  refine ⟨ys, earlier, last, hp.trace, hturns, hending.expired, ?_, ?_, ?_⟩
  · rintro rfl hraw
    exact hending.failed_of_none hraw
  · intro i u t hu harrival ht hle
    have hlt : i < (turns start ys).length := (List.getElem?_eq_some_iff.1 hu).1
    by_contra hne
    have hnext : i + 1 < (turns start ys).length := Nat.lt_of_le_of_ne hlt hne
    rcases (hresumes i u hu).1 hnext with hi | ⟨-, -, hleft⟩
    · rw [isInterrupted_of_isArrival harrival] at hi
      cases hi
    · have hless : ((turns start ys)[i + 1]?.map Turn.asked).getD stop - start < t := hleft t ht
      omega
  · rintro hwhy hpunctual hcode hraw t rfl
    have hlast : last ∈ turns start ys := by
      rw [hturns]
      exact List.mem_append_right _ (List.mem_singleton.2 rfl)
    have hlasts : start + t ≤ stop := hending.lasts (hasking last hlast) hwhy hpunctual hcode hraw
    omega

/-- A wait of ten milliseconds gets a stale completion after four, is interrupted after five, and gets another one
after nine. It goes on each time, and lasts until the kernel says that the time is over. -/
theorem wait_expires_stale :
    let stale : Entry := { completions := [⟨7, 1, false⟩], elapsed := 4000000 }
    let script : Script Service Entry :=
      [(.ringWait, stale), (.ringWait, { error := some Code.interrupted, elapsed := 1000000 }), (.ringWait, stale),
        (.ringWait, { error := some Code.timerExpired, elapsed := 1000000 })]
    let w : World Replay.kernel := Replay.world { script }
    let r := ({} : RingPoller).wait Buffer.empty (some 10000000) w
    let ts := turns (Replay.kernel.clock w.kernel) r.2.trace
    ts.map (·.exchange.call.limit?) =
        [some ⟨0, 10000000⟩, some ⟨0, 6000000⟩, some ⟨0, 5000000⟩, some ⟨0, 1000000⟩] ∧
      r.1.1 = Code.success ∧ r.1.2.2.raw = [] ∧ (∀ t ∈ ts, t.Punctual) ∧
      10000000 ≤ Replay.kernel.clock r.2.kernel - Replay.kernel.clock w.kernel := by
  intro stale script w r ts
  have hcode : r.1.1 = Code.success := by decide +kernel
  have hraw : r.1.2.2.raw = [] := by decide +kernel
  have hpunctual : ∀ t ∈ ts, t.Punctual := by decide +kernel
  have hwhy : ∀ t ∈ ts, t.exchange.waitError? ≠ some Code.success := by decide +kernel
  obtain ⟨xs, earlier, last, htrace, hturns, -, -, -, hlasts⟩ :=
    @wait_expires Replay.kernel {} Buffer.empty (some 10000000) w
  have hnew : w.trace ++ xs = xs := rfl
  rw [hnew] at htrace
  rw [← htrace] at hturns
  have hlast : last ∈ earlier ++ [last] := List.mem_append_right _ (List.mem_singleton.2 rfl)
  rw [← hturns] at hlast
  refine ⟨by decide +kernel, hcode, hraw, hpunctual, ?_⟩
  -- what was said of the wait is about the same terms, and need not be evaluated to see it
  with_reducible exact hlasts (hwhy last hlast) (hpunctual last hlast) hcode hraw 10000000 rfl

end RingPoller

end Vigil
