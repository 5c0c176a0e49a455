import Vigil.Backend
import Vigil.Proofs.Wait.Passage
import Vigil.Replay

/-!
# The verdict on changes

Changes are handed over to a filter queue until the call is not interrupted, each time the same ones, and the last
answer decides what comes of them.

- `Kevent.Fails`: a receipt that reports a failure which is not benign;
- `Code.Judges`: a code says of an answer what is to be said of it: the error of the call, or else the data of the
  first receipt that fails (`judges_verdict`);
- `HandedOver`: some calls are such a submission. Applying changes is one (`Kqueue.handsOver_apply`), and whatever
  changes registrations applies the changes of its event (`Kqueue.handsOver_modify`);
- `changes_judged`: so it is for the changes of callers, which may be too many, and for those of registrations.
-/

namespace Vigil

variable {K : Kernel}

/-! ## Verdicts -/

/-- A receipt reports an error, and not only that the handle of the filter was closed in the meantime. -/
def Kevent.Fails (r : Kevent) : Prop :=
  r.flags &&& Kevent.error ≠ 0 ∧ r.data ≠ 0 ∧ r.data ≠ Code.noEntry.toInt64 ∧ r.data ≠ Code.brokenPipe.toInt64

theorem Kevent.isFailure_iff (r : Kevent) : r.isFailure = true ↔ r.Fails := by
  have hbenign : Code.noEntry.toInt64 = 2 ∧ Code.brokenPipe.toInt64 = 32 := by decide
  simp [isFailure, Fails, Code.isBenign, hbenign, and_assoc]

/-- A number that a code can stand for. -/
def Code.Fits (n : Int64) : Prop := -2147483648 ≤ n.toInt ∧ n.toInt < 2147483648

theorem Code.toInt_toInt32 {n : Int64} (h : Code.Fits n) : n.toInt32.toInt = n.toInt := by
  obtain ⟨hlo, hhi⟩ := h
  rw [Int64.toInt_toInt32, Int.bmod_eq_of_le] <;> omega

/-- What a code has to say of an answer to changes. The error of the call goes first. If there is none, then the code
is success just if no receipt fails, and otherwise the data of the first receipt that does, whatever the receipts before
it report. -/
def Code.Judges (code : Code) : Fallible (List Kevent) → Prop
  | .error e => code = e
  | .ok receipts => (∀ r ∈ receipts, Code.Fits r.data) →
    (code = Code.success ↔ ∀ r ∈ receipts, ¬ r.Fails) ∧
      ∀ before r after, receipts = before ++ r :: after → (∀ b ∈ before, ¬ b.Fails) → r.Fails →
        code.toInt = r.data.toInt

theorem verdict_eq_none {receipts : List Kevent} : verdict receipts = none ↔ ∀ r ∈ receipts, ¬ r.Fails := by
  unfold verdict
  rw [List.find?_eq_none]
  simp only [Kevent.isFailure_iff]

/-- The verdict is the first receipt that fails. -/
theorem verdict_of_first {before after : List Kevent} {r : Kevent} (hbefore : ∀ b ∈ before, ¬ b.Fails)
    (hr : r.Fails) : verdict (before ++ r :: after) = some r := by
  unfold verdict
  rw [List.find?_eq_some_iff_append]
  refine ⟨(Kevent.isFailure_iff r).2 hr, before, after, rfl, fun b hb => ?_⟩
  have hnot : ¬ b.isFailure = true := mt (Kevent.isFailure_iff b).1 (hbefore b hb)
  simp [hnot]

theorem fails_of_verdict {receipts : List Kevent} {r : Kevent} (h : verdict receipts = some r) :
    r ∈ receipts ∧ r.Fails :=
  ⟨List.mem_of_find?_eq_some h, (Kevent.isFailure_iff r).1 (List.find?_some h)⟩

/-- The code of the verdict judges the answer. -/
theorem judges_verdict (receipts : List Kevent) :
    Code.Judges ((verdict receipts).elim Code.success (·.data.toInt32)) (.ok receipts) := by
  intro hfits
  constructor
  · cases hv : verdict receipts with
    | none => exact iff_of_true rfl (verdict_eq_none.1 hv)
    | some r =>
      obtain ⟨hmem, hr⟩ := fails_of_verdict hv
      refine iff_of_false (fun hzero => hr.2.1 ?_) fun h => h r hmem hr
      have hzero : r.data.toInt32 = Code.success := hzero
      have hint : r.data.toInt = 0 := by
        rw [← Code.toInt_toInt32 (hfits r hmem), hzero]
        rfl
      exact Int64.toInt_inj.1 hint
  · rintro before r after rfl hbefore hr
    rw [verdict_of_first hbefore hr]
    exact Code.toInt_toInt32 (hfits r (by simp))

/-! ## Submissions -/

/-- Whether a call is made again after its answer. -/
def Exchange.isRetried (x : Exchange) : Bool := retried x.call x.reply

/-- Calls that hand changes over to a queue until they are not interrupted, and a code that judges the last answer. -/
structure HandedOver (queue : Descriptor) (changes : List Kevent) (code : Code) (xs : List Exchange) : Prop where
  /-- Each call hands over the same changes. -/
  call : ∀ x ∈ xs, x.call = .keventChange queue changes
  /-- There is one call more than interruptions. -/
  length : xs.length = xs.countP Exchange.isRetried + 1
  /-- The last call is not interrupted, and all calls before it are. -/
  judged : ∃ front reply t, xs = front ++ [⟨.keventChange queue changes, reply, t⟩] ∧
    (∀ x ∈ front, x.isRetried = true) ∧ interrupted reply = false ∧ code.Judges reply

theorem HandedOver.ofFront {queue : Descriptor} {changes : List Kevent} {code : Code} {front : List Exchange}
    {reply : Fallible (List Kevent)} {t : Int}
    (hfront : ∀ x ∈ front, ∃ t, x = ⟨.keventChange queue changes, .error Code.interrupted, t⟩)
    (hi : interrupted reply = false) (hcode : code.Judges reply) :
    HandedOver queue changes code (front ++ [⟨.keventChange queue changes, reply, t⟩]) := by
  have hretried : ∀ x ∈ front, x.isRetried = true := by
    intro x hx
    obtain ⟨t, rfl⟩ := hfront x hx
    rfl
  refine ⟨?_, ?_, front, reply, t, rfl, hretried, hi, hcode⟩
  · refine List.forall_mem_append.2 ⟨fun x hx => ?_, List.forall_mem_singleton.2 rfl⟩
    obtain ⟨t, rfl⟩ := hfront x hx
    rfl
  · have hcount : front.countP Exchange.isRetried = front.length := List.countP_eq_length.2 hretried
    have hlast : Exchange.isRetried ⟨.keventChange queue changes, reply, t⟩ = false := hi
    simp [hcount, hlast]

namespace Kqueue

/-- Changes are handed over until they are not interrupted. -/
theorem shows_handOver (q : Kqueue) (changes : List Kevent) :
    Shows (K := K) [] (insist interrupted (call (.keventChange q.fd changes))) fun reply xs =>
      (∃ front t, xs = front ++ [⟨.keventChange q.fd changes, reply, t⟩] ∧
        ∀ x ∈ front, ∃ t, x = ⟨.keventChange q.fd changes, .error Code.interrupted, t⟩) ∧
      interrupted reply = false := by
  let c : Call := .keventChange q.fd changes
  let asked (reply : Reply c) (xs : List Exchange) : Prop :=
    ∃ front t, xs = front ++ [⟨c, reply, t⟩] ∧ ∀ x ∈ front, ∃ t, x = ⟨c, .error Code.interrupted, t⟩
  have hfirst : Shows (K := K) [] (call c) asked := .call fun _ t => ⟨[], t, rfl, List.forall_mem_nil _⟩
  have hrepeat : ∀ (reply : Reply c) xs, asked reply xs → interrupted reply = true →
      Shows (K := K) xs (call c) asked := by
    rintro reply _ ⟨front, t, rfl, hfront⟩ hi
    refine .call fun _ t' => ⟨_, t', rfl, List.forall_mem_append.2 ⟨hfront, List.forall_mem_singleton.2 ⟨t, ?_⟩⟩⟩
    cases reply with
    | error code =>
      have hcode : code = Code.interrupted := eq_of_beq hi
      rw [hcode]
    | ok receipts => cases hi
  exact Shows.insist (fun _ h => patience_call_lt h) hfirst hrepeat

/-- Applying changes hands them over, and answers with the verdict on what came back. -/
theorem handsOver_apply (q : Kqueue) {changes : List Kevent} (h : changes.length ≤ maxChanges) :
    Shows (K := K) [] (q.apply changes) (HandedOver q.fd changes) := by
  rw [apply_eq, if_neg (Nat.not_lt.2 h)]
  refine (q.shows_handOver changes).bind ?_
  rintro reply _ ⟨⟨front, t, rfl, hfront⟩, hi⟩
  have hover : ∀ code : Code, code.Judges reply →
      HandedOver q.fd changes code (front ++ [⟨.keventChange q.fd changes, reply, t⟩]) := fun code hcode =>
    .ofFront hfront hi hcode
  cases reply with
  | error code => exact .note_bind (.pure (hover code rfl))
  | ok receipts =>
    have hcode := hover _ (judges_verdict receipts)
    dsimp only
    cases hv : verdict receipts with
    | none =>
      rw [hv] at hcode
      exact .pure hcode
    | some r =>
      rw [hv] at hcode
      exact .note_bind (.pure hcode)

theorem handsOver_modify (q : Kqueue) (fd : Descriptor) (e : Event) (mode : Mode) :
    Shows (K := K) [] (q.modify fd e mode) (HandedOver q.fd (e.changes fd mode)) := by
  have h : Shows (K := K) [] (q.apply (e.changes fd mode)) (HandedOver q.fd (e.changes fd mode)) :=
    q.handsOver_apply (Nat.le_refl _)
  unfold modify
  split
  · exact .note_bind h
  · exact h

end Kqueue

/-- **The verdict on changes.** A filter queue turns down more than two changes without a call. Fewer are handed over in
order, with nothing changed but that their receipts are asked for, again after each interruption and the same each time.
The code is the error of the last call if it failed. Otherwise it is success just if no receipt fails, and the data of
the first receipt that does; receipts before it that are benign do not hide it. A registration has two changes, of the
read filter and of the write filter of its descriptor, each of which adds its filter under the key and with the flags of
the mode if the direction is wanted, and deletes it otherwise. They are handed over and judged in the same way. -/
theorem changes_judged (q : Kqueue) (w : World K) :
    (∀ changes : List Kevent, 2 < changes.length → (Backend.kqueue q).submit changes w = (Code.invalid, w)) ∧
    (∀ changes : List Kevent, changes.length ≤ 2 →
      let r := (Backend.kqueue q).submit changes w
      ∃ xs, r.2.trace = w.trace ++ xs ∧
        HandedOver q.fd (changes.map fun k => { k with flags := k.flags ||| Kevent.receipt }) r.1 xs) ∧
    (∀ fd (e : Event) (mode : Mode),
      let change (filter : Int16) (wanted : Bool) : Kevent :=
        { ident := Kevent.identOf fd, filter, flags := (if wanted then 0x1 ||| mode.flags else 0x2) ||| 0x40,
          fflags := 0, data := 0, udata := e.key }
      let r := q.modify fd e mode w
      e.changes fd mode = [change Kevent.read e.readable, change Kevent.write e.writable] ∧
        ∃ xs, r.2.trace = w.trace ++ xs ∧ HandedOver q.fd (e.changes fd mode) r.1 xs) ∧
    ∀ fd,
      let r := q.remove fd w
      ∃ xs, r.2.trace = w.trace ++ xs ∧ HandedOver q.fd ((Event.none 0).changes fd .oneshot) r.1 xs := by
  have hmodify : ∀ fd e mode, ∃ xs, (q.modify fd e mode w).2.trace = w.trace ++ xs ∧
      HandedOver q.fd (e.changes fd mode) (q.modify fd e mode w).1 xs := by
    intro fd e mode
    obtain ⟨xs, hp, hxs⟩ := q.handsOver_modify fd e mode w
    exact ⟨xs, hp.trace, hxs⟩
  refine ⟨fun changes h => ?_, fun changes h => ?_, fun fd e mode => ⟨rfl, hmodify fd e mode⟩,
    fun fd => hmodify fd (.none 0) .oneshot⟩
  · have hmany : Kqueue.maxChanges < (changes.map Kevent.withReceipt).length := by
      rw [List.length_map]
      exact h
    show q.apply (changes.map Kevent.withReceipt) w = _
    unfold Kqueue.apply
    rw [if_pos hmany]
    rfl
  · have hfew : (changes.map Kevent.withReceipt).length ≤ Kqueue.maxChanges := by
      rw [List.length_map]
      exact h
    obtain ⟨xs, hp, hxs⟩ := q.handsOver_apply hfew w
    exact ⟨xs, hp.trace, hxs⟩

/-- After an interruption, the first of two receipts says that its handle was closed, and the second that it is none. -/
theorem changes_judged_second :
    let q : Kqueue := { fd := 3 }
    let timer : Kevent := ⟨5, Kevent.timer, Kevent.add, 0, 10, 7⟩
    let signal : Kevent := ⟨9, Kevent.signal, Kevent.add ||| Kevent.clear, 0, 0, 8⟩
    let sent := [{ timer with flags := Kevent.add ||| Kevent.receipt },
      { signal with flags := Kevent.add ||| Kevent.clear ||| Kevent.receipt }]
    let w := Replay.world {
      script := [(.kevent, { error := some Code.interrupted }),
        (.kevent, { receipts := some [(Kevent.error, 32), (Kevent.error, 9)] })] }
    let r := (Backend.kqueue q).submit [timer, signal] w
    r.1 = 9 ∧ r.2.trace.map Exchange.call = [.keventChange 3 sent, .keventChange 3 sent] ∧
      HandedOver 3 sent r.1 r.2.trace := by
  intro q timer signal sent w r
  refine ⟨by decide +kernel, by decide +kernel, ?_⟩
  obtain ⟨xs, htrace, hxs⟩ := (changes_judged (K := Replay.kernel) q w).2.1 [timer, signal] (by decide)
  have htrace : r.2.trace = xs := htrace
  rw [htrace]
  exact hxs

end Vigil
