import Vigil.CompletionPort.Basic
import Vigil.CompletionPort.Replay

/-!
# Failures of completion queues

What the owner of a queue answers when the system fails, whichever handle it owns or none.

- `Ends`: what is true of the result of a program and of the world that it leaves. Each part of a program is followed
  from the world that the parts before it left;
- `Call.failed`: whether a call failed, as its reply says;
- `Asks`: from one world to another, one call was made; `Reports`: an operation asks once, and answers with the last
  error just if the call failed;
- `failures_reported`: what each operation answers. An association compares handles, and where its owner has none, a
  failure goes unnoticed (`associate_unnoticed`).
-/

namespace Vigil.CompletionPort

variable {S : System}

/-! ## Programs and their ends -/

/-- A property holds of the result of a program that begins in a given world, and of the world that it leaves. -/
def Ends {α : Type} (w : World S) (m : Ops S α) (Q : α → World S → Prop) : Prop := Q (m w).1 (m w).2

namespace Ends

variable {α β : Type} {w : World S} {m n : Ops S α} {Q : α → World S → Prop}

theorem pure {a : α} (h : Q a w) : Ends w (Pure.pure a) Q := h

theorem bind {R : β → World S → Prop} {f : α → Ops S β} (h : Ends w m fun a v => Ends v (f a) R) :
    Ends w (m >>= f) R := h

theorem ite {c : Prop} [Decidable c] (hm : c → Ends w m Q) (hn : ¬ c → Ends w n Q) :
    Ends w (if c then m else n) Q := by
  split
  · rename_i hc
    exact hm hc
  · rename_i hc
    exact hn hc

theorem note {n : Note} {Q : Unit → World S → Prop} (h : Q () (note n w).2) : Ends w (note n) Q := h

theorem lastError {Q : WinError → World S → Prop} (h : Q (S.lastError w.system) w) : Ends w lastError Q := h

theorem mono {R : α → World S → Prop} (h : Ends w m R) (hR : ∀ a v, R a v → Q a v) : Ends w m Q := hR _ _ h

end Ends

/-! ## Calls -/

/-- Whether a call failed: it gave nothing that was asked for, or said so. -/
def Call.failed : (c : Call) → Reply c → Bool
  | .createQueue .., h => h == noHandle
  | .dequeue .., r => !r.1
  | .enqueue .., done => !done
  | .setModes .., done => !done
  | .close _, done => !done
  | .findModule _, h => h == noHandle
  | .findProcedure .., address => address == 0
  | .control .., r => !r.1

/-- From one world to another, one call was made, with a reply; the error that it left behind is still there. -/
structure Asks (c : Call) (reply : Reply c) (w v : World S) : Prop where
  answer : S.answer w.system c = (reply, v.system)
  trace : v.trace = w.trace ++ [⟨c, reply⟩]

namespace Asks

variable {c : Call} {reply : Reply c} {w v : World S}

theorem noted (h : Asks c reply w v) (n : Note) : Asks c reply w (note n v).2 := ⟨h.answer, h.trace⟩

theorem reply_unique {reply' : Reply c} (h : Asks c reply w v) (h' : Asks c reply' w v) : reply = reply' :=
  (Prod.mk.inj (h.answer.symm.trans h'.answer)).1

theorem of_noted {n : Note} (h : Asks c reply (note n w).2 v) : Asks c reply w v := ⟨h.answer, h.trace⟩

end Asks

theorem Ends.call {c : Call} {w : World S} {Q : Reply c → World S → Prop}
    (h : ∀ reply v, Asks c reply w v → Q reply v) : Ends w (call c) Q := h _ _ ⟨rfl, rfl⟩

/-! ## Operations of one call -/

/-- An operation makes one call, and answers with the error that it left behind just if it failed. -/
def Reports (c : Call) (w : World S) (e : WinError) (v : World S) : Prop :=
  ∃ reply, Asks c reply w v ∧ e = if c.failed reply then S.lastError v.system else WinError.success

/-- What is asked once, with a note of the error. -/
theorem reports_asking {c : Call} {passes : Reply c → Bool} (hpasses : ∀ reply, passes reply = !c.failed reply)
    (failure : WinError → Note) (w : World S) :
    Ends w (do
      if passes (← call c) then
        pure WinError.success
      else
        let e ← lastError
        note (failure e)
        pure e) (Reports c w) := by
  refine .bind (.call fun reply v hasks => .ite (fun hpass => ?_) fun hfail => ?_)
  · have hdone : c.failed reply = false := by simpa [hpasses] using hpass
    refine .pure ⟨reply, hasks, ?_⟩
    rw [hdone]
    rfl
  · have hfailed : c.failed reply = true := by simpa [hpasses] using hfail
    refine .bind (.lastError (.bind (.note (.pure ⟨reply, hasks.noted _, ?_⟩))))
    rw [hfailed]
    rfl

variable (p : CompletionPort) (w : World S)

theorem reports_skipCompletionOnSuccess (file : Handle) :
    Ends w (skipCompletionOnSuccess file) (Reports (.setModes file (skipQueue ||| skipEvent)) w) :=
  reports_asking (c := .setModes file (skipQueue ||| skipEvent)) (fun done => (Bool.not_not done).symm)
    (.setModesFailed file) w

theorem reports_post (bytes : UInt32) (key : Key) (overlapped : Address) :
    Ends w (p.post bytes key overlapped) (Reports (.enqueue p.handle bytes key overlapped) w) :=
  reports_asking (c := .enqueue p.handle bytes key overlapped) (fun done => (Bool.not_not done).symm) .enqueueFailed w

/-- A failed association is answered with no handle. That is not the handle of the owner, unless the owner has none. -/
theorem ends_associate (file : Handle) (key : Key) :
    Ends w (p.associate file key) fun e v => ∃ h, Asks (.createQueue file p.handle key 0) h w v ∧
      e = if h = p.handle then WinError.success else S.lastError v.system := by
  refine .bind (.note (.bind (.call fun h v hasks => .ite (fun hother => ?_) fun hown => ?_)))
  · refine .bind (.lastError (.bind (.note (.pure ⟨h, hasks.of_noted.noted _, ?_⟩))))
    rw [if_neg hother]
    rfl
  · refine .pure ⟨h, hasks.of_noted, ?_⟩
    rw [if_pos (Decidable.of_not_not hown)]

/-! ## The other operations -/

/-- After its handle is closed an owner has none, whether closing it failed or not. -/
theorem ends_reset : Ends w p.reset fun p' _ => p' = {} := by
  obtain ⟨h⟩ := p
  refine .ite (fun hnone => ?_) fun hsome => ?_
  · have hnone : h = noHandle := hnone
    exact .pure (by rw [hnone])
  · refine .bind (.note (.bind (.call fun closed v _ => .ite (fun _ => ?_) fun _ => ?_)))
    · exact .bind (.lastError (.bind (.note (.pure rfl))))
    · exact .pure rfl

/-- A failed creation leaves its owner without a handle, also without the one that it had before. -/
theorem ends_init :
    Ends w p.init fun r v => ∃ h, Asks (.createQueue invalidHandle noHandle 0 0) h (p.reset w).2 v ∧
      r = if h = noHandle then (S.lastError v.system, {}) else (WinError.success, ⟨h⟩) := by
  have hreset : Ends w p.reset fun p' u => p' = {} ∧ u = (p.reset w).2 := ⟨ends_reset p w, rfl⟩
  refine .bind (hreset.mono ?_)
  rintro _ u ⟨rfl, rfl⟩
  refine .bind (.call fun h v hasks => .ite (fun hnone => ?_) fun hsome => ?_)
  · refine .bind (.lastError (.bind (.note (.pure ⟨h, hasks.noted _, ?_⟩))))
    rw [if_pos hnone]
    rfl
  · refine .bind (.note (.pure ⟨h, hasks.noted _, ?_⟩))
    rw [if_neg hsome]

/-- Packets that a failed call stored are not handed on. -/
theorem ends_getStatus (capacity timeout : UInt32) (alertable : Bool) :
    Ends w (p.getStatus capacity timeout alertable) fun r v =>
      ∃ taken packets, Asks (.dequeue p.handle capacity timeout alertable) (taken, packets) w v ∧
        r = if taken then (WinError.success, packets)
          else (if S.lastError v.system = WinError.timeout then WinError.success else S.lastError v.system, []) := by
  refine .bind (.call fun reply v hasks => ?_)
  obtain ⟨taken, packets⟩ := reply
  refine .ite (fun htaken => ?_) fun hfailed => ?_
  · refine .pure ⟨taken, packets, hasks, ?_⟩
    rw [if_pos htaken]
  · refine .bind (.lastError (.ite (fun htime => ?_) fun herror => ?_))
    · refine .pure ⟨taken, packets, hasks, ?_⟩
      rw [if_neg hfailed, if_pos htime]
    · refine .bind (.note (.pure ⟨taken, packets, hasks.noted _, ?_⟩))
      rw [if_neg hfailed]
      show _ = (if S.lastError v.system = WinError.timeout then _ else _, _)
      rw [if_neg herror]
      rfl

/-- The provider of a socket is asked a second time just if it does not answer the first query, whose error is kept. -/
theorem ends_baseSocket (socket known : Socket) :
    Ends w (baseSocket socket known) fun r v =>
      ∃ found base u, Asks (.control socket baseQuery) (found, base) w u ∧
        (found = true ∧ v = u ∧ r.1 = WinError.success ∨
          found = false ∧ ∃ found' base', Asks (.control socket pollQuery) (found', base') u v ∧
            r.1 = if found' then WinError.success else S.lastError u.system) := by
  refine .bind (.call fun reply u hasks => ?_)
  obtain ⟨found, base⟩ := reply
  refine .ite (fun hfound => ?_) fun hfailed => ?_
  · exact .pure ⟨found, base, u, hasks, .inl ⟨hfound, rfl, rfl⟩⟩
  · have hfailed : found = false := Bool.eq_false_iff.2 hfailed
    refine .bind (.lastError (.bind (.call fun reply' v hasks' => ?_)))
    obtain ⟨found', base'⟩ := reply'
    refine .ite (fun hfound' => ?_) fun hfailed' => ?_
    · refine .pure ⟨found, base, u, hasks, .inr ⟨hfailed, found', base', hasks', ?_⟩⟩
      rw [if_pos hfound']
    · refine .bind (.note (.pure ⟨found, base, u, hasks, .inr ⟨hfailed, found', base', hasks'.noted _, ?_⟩⟩))
      rw [if_neg hfailed']

/-- **Failures.** Whichever handle an owner has or none, and whatever the system answers: when the call of an operation
fails, the operation answers with the error that the call left behind, and otherwise with success. A wait that runs out
of time is a success, and a failed wait hands on no packets, whatever it stored. A failed creation leaves no handle. The
socket of the base provider is not found just if both queries fail, given that the first one leaves an error behind,
which is then the answer. Only an association whose owner has no handle answers a failure with success. -/
theorem failures_reported (p : CompletionPort) (w : World S) :
    (∃ h, Asks (.createQueue invalidHandle noHandle 0 0) h (p.reset w).2 (p.init w).2 ∧
      (h = noHandle → (p.init w).1 = (S.lastError (p.init w).2.system, {})) ∧
      (h ≠ noHandle → (p.init w).1 = (WinError.success, ⟨h⟩))) ∧
    (∀ file, Ends w (skipCompletionOnSuccess file) (Reports (.setModes file (skipQueue ||| skipEvent)) w)) ∧
    (∀ bytes key overlapped,
      Ends w (p.post bytes key overlapped) (Reports (.enqueue p.handle bytes key overlapped) w)) ∧
    Ends w p.wake (Reports (.enqueue p.handle 0 notifyKey 0) w) ∧
    (∀ capacity timeout alertable,
      let r := p.getStatus capacity timeout alertable w
      let e := S.lastError r.2.system
      ∃ taken packets, Asks (.dequeue p.handle capacity timeout alertable) (taken, packets) w r.2 ∧
        (taken = true → r.1 = (WinError.success, packets)) ∧
        (taken = false → r.1 = (if e = WinError.timeout then WinError.success else e, []))) ∧
    (∀ file key,
      let r := p.associate file key w
      ∃ h, Asks (.createQueue file p.handle key 0) h w r.2 ∧ (h = p.handle → r.1 = WinError.success) ∧
        (h ≠ p.handle → r.1 = S.lastError r.2.system) ∧
        (h = noHandle → r.1 = if p.handle = noHandle then WinError.success else S.lastError r.2.system)) ∧
    ∀ socket known,
      let r := baseSocket socket known w
      ∃ found base v, Asks (.control socket baseQuery) (found, base) w v ∧
        (S.lastError v.system ≠ WinError.success →
          (r.1.1 ≠ WinError.success ↔ found = false ∧
            ∃ base', Asks (.control socket pollQuery) (false, base') v r.2)) ∧
        (r.1.1 ≠ WinError.success → r.1.1 = S.lastError v.system) := by
  refine ⟨?_, reports_skipCompletionOnSuccess w, reports_post p w, reports_post p w 0 notifyKey 0, ?_, ?_, ?_⟩
  · obtain ⟨h, hasks, hr⟩ := ends_init p w
    refine ⟨h, hasks, fun hnone => ?_, fun hsome => ?_⟩
    · rw [hr, if_pos hnone]
    · rw [hr, if_neg hsome]
  · intro capacity timeout alertable r e
    obtain ⟨taken, packets, hasks, hr⟩ := ends_getStatus p w capacity timeout alertable
    refine ⟨taken, packets, hasks, fun htaken => ?_, fun hfailed => ?_⟩
    · exact hr.trans (if_pos htaken)
    · exact hr.trans (if_neg (Bool.eq_false_iff.1 hfailed))
  · intro file key r
    obtain ⟨h, hasks, hr⟩ := ends_associate p w file key
    refine ⟨h, hasks, fun hown => hr.trans (if_pos hown), fun hother => hr.trans (if_neg hother), fun hnone => ?_⟩
    rw [hnone] at hr
    simpa only [eq_comm] using hr
  · intro socket known r
    obtain ⟨found, base, v, hasks, hr⟩ := ends_baseSocket w socket known
    refine ⟨found, base, v, hasks, ?_⟩
    rcases hr with ⟨rfl, -, hr⟩ | ⟨rfl, found', base', hasks', hr⟩
    · exact ⟨fun _ => iff_of_false (not_not_intro hr) fun hfailed => Bool.noConfusion hfailed.1,
        fun hne => absurd hr hne⟩
    · cases found' with
      | true =>
        refine ⟨fun _ => iff_of_false (not_not_intro hr) fun ⟨_, base'', hasks''⟩ => ?_, fun hne => absurd hr hne⟩
        exact Bool.noConfusion (Prod.mk.inj (hasks'.reply_unique hasks'')).1
      | false =>
        have hr : r.1.1 = S.lastError v.system := hr
        refine ⟨fun herror => iff_of_true ?_ ⟨rfl, base', hasks'⟩, fun _ => hr⟩
        rw [hr]
        exact herror

/-- Everything fails for an owner of a handle, and a wait that fails has stored a packet. -/
theorem failures_reported_stored :
    let p : CompletionPort := ⟨4096⟩
    let w := Replay.world {
      script := [(.createQueue, { error := some WinError.invalidHandle }),
        (.dequeue, { error := some WinError.aborted, packets := [⟨7, 0, 0, 12⟩] }),
        (.control, { error := some WinError.pending }), (.control, { error := some WinError.notFound })] }
    (p.init w).1 = (WinError.invalidHandle, {}) ∧ (p.getStatus 4 10 false w).1 = (WinError.aborted, []) ∧
      (p.associate 5 7 w).1 = WinError.invalidHandle ∧ (baseSocket 9 0 w).1.1 = WinError.pending := by
  intro p w
  obtain ⟨⟨h, hinit, hnone, -⟩, -, -, -, hwait, hassociate, hbase⟩ := failures_reported (S := Replay.system) p w
  obtain ⟨taken, packets, htaken, -, hfailed⟩ := hwait 4 10 false
  obtain ⟨h', hasks, -, -, hnone'⟩ := hassociate 5 7
  obtain ⟨found, base, v, hfound, -, herror⟩ := hbase 9 0
  have htaken : (taken, packets) = (false, [⟨7, 0, 0, 12⟩]) := (Prod.mk.inj htaken.answer).1.symm
  refine ⟨hnone (Prod.mk.inj hinit.answer).1.symm, ?_, ?_, ?_⟩
  · exact hfailed (Prod.mk.inj htaken).1
  · exact hnone' (Prod.mk.inj hasks.answer).1.symm
  · have hv : Replay.system.lastError v.system = WinError.pending :=
      congrArg Replay.system.lastError (Prod.mk.inj hfound.answer).2.symm
    exact (herror (by decide)).trans hv

/-- An owner that was never initialised takes the answer of a failed association for its own handle. -/
theorem associate_unnoticed :
    let p : CompletionPort := {}
    let w := Replay.world { script := [(.createQueue, { error := some WinError.invalidHandle })] }
    let r := p.associate 5 7 w
    Asks (.createQueue 5 noHandle 7 0) noHandle w r.2 ∧ Call.failed (.createQueue 5 noHandle 7 0) noHandle = true ∧
      Replay.system.lastError r.2.system = WinError.invalidHandle ∧ r.1 = WinError.success :=
  ⟨⟨rfl, rfl⟩, rfl, rfl, rfl⟩

end Vigil.CompletionPort
