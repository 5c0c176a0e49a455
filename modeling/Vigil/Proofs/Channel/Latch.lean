import Vigil.Proofs.Channel.Vessel
import Vigil.World

/-!
# A channel among threads

`Latch.kernel` serves one channel to any number of threads, and registers it with a backend that watches what it is
told to. The program that is looked at is one of the threads. A schedule of `Beat`s says what the others do before each
of its calls, whether the call is interrupted, and what the backend answers to a change.

- `Latch.act`: one call takes effect, whichever thread makes it. All that takes effect is logged, in order;
- `Latch.actAll`: calls take effect one after the other;
- `Latch.answer`: the answer to the program's next call.
-/

namespace Vigil

/-- What happens around one call of a program. -/
structure Beat where
  /-- What other threads call before it. -/
  others : List Call := []
  /-- Whether the call is interrupted before it takes effect, if it reads or writes. -/
  interrupted : Bool := false
  /-- What the backend answers if it is asked to change a registration. -/
  code : Code := Code.success

/-- A channel's level, what the backend watches it for, the schedule to come, and all that took effect so far. -/
structure Latch where
  level : Nat := 0
  watching : Option (Event × Mode) := none
  beats : List Beat := []
  log : List Exchange := []

/-- A change that makes a backend watch the channel for one wake-up. -/
abbrev Channel.rearming (c : Channel) : Call := .hostModify c.watched (.readableOnly notifyKey) .oneshot

/-- Whether something was asked to be read. -/
def Exchange.isRead : Exchange → Bool
  | ⟨.read .., _, _⟩ => true
  | _ => false

/-- Whether something was written. -/
def Exchange.isWritten : Exchange → Bool
  | ⟨.write .., .ok _, _⟩ => true
  | _ => false

namespace Latch

variable {v : Vessel}

/-- What a call leads to. A backend that answers a change with success watches the channel from then on. -/
def serve (v : Vessel) (code : Code) (s : Latch) : (c : Call) → Reply c × Latch
  | .read fd size =>
    let r := v.read s.level fd size
    (r.1, { s with level := r.2 })
  | .write fd bytes =>
    let r := v.write s.level fd bytes
    (r.1, { s with level := r.2 })
  | .hostModify fd e mode =>
    (code, if fd = v.channel.watched ∧ code = Code.success then { s with watching := some (e, mode) } else s)
  | c => (c.refusal, s)

/-- A call takes effect, and is logged. -/
def act (v : Vessel) (code : Code) (s : Latch) (c : Call) : Reply c × Latch :=
  let r := s.serve v code c
  (r.1, { r.2 with log := r.2.log ++ [⟨c, r.1, 0⟩] })

/-- Calls take effect one after the other. -/
def actAll (v : Vessel) (s : Latch) (cs : List Call) : Latch := cs.foldl (fun s c => (s.act v Code.success c).2) s

/-- A call is interrupted, if it reads or writes, or takes effect. -/
def attempt (v : Vessel) (b : Beat) (s : Latch) : (c : Call) → Reply c × Latch
  | .read fd size => if b.interrupted then (.error Code.interrupted, s) else s.act v b.code (.read fd size)
  | .write fd bytes => if b.interrupted then (.error Code.interrupted, s) else s.act v b.code (.write fd bytes)
  | c => s.act v b.code c

/-- The answer to the next call of the program. Without a beat nobody else does anything, and changes succeed. -/
def answer (v : Vessel) (s : Latch) (c : Call) : Reply c × Latch :=
  match s.beats with
  | [] => s.act v Code.success c
  | b :: bs => (actAll v { s with beats := bs } b.others).attempt v b c

/-! ## Patience -/

/-- How many calls and beats are scheduled. -/
def scheduled (s : Latch) : Nat := (s.beats.flatMap Beat.others).length + s.beats.length

/-- How often a read can still take something, or a call be interrupted. -/
def patience (s : Latch) : Nat := s.level + s.scheduled

theorem beats_act (v : Vessel) (code : Code) (s : Latch) (c : Call) : (s.act v code c).2.beats = s.beats := by
  cases c with
  | hostModify fd e mode =>
    simp only [act, serve]
    split <;> rfl
  | _ => rfl

theorem level_act_le (v : Vessel) (code : Code) (s : Latch) (c : Call) : (s.act v code c).2.level ≤ s.level + 1 := by
  cases c with
  | read fd size => exact Nat.le_succ_of_le (v.level_read_le s.level fd size)
  | write fd bytes => exact v.level_write_le s.level fd bytes
  | hostModify fd e mode =>
    simp only [act, serve]
    split <;> exact Nat.le_succ _
  | _ => exact Nat.le_succ _

theorem beats_actAll (v : Vessel) : ∀ (cs : List Call) (s : Latch), (actAll v s cs).beats = s.beats
  | [], _ => rfl
  | c :: cs, s => (beats_actAll v cs _).trans (beats_act v Code.success s c)

theorem level_actAll_le (v : Vessel) : ∀ (cs : List Call) (s : Latch), (actAll v s cs).level ≤ s.level + cs.length
  | [], _ => Nat.le_refl _
  | c :: cs, s => by
    have h := level_actAll_le v cs (s.act v Code.success c).2
    have hc := level_act_le v Code.success s c
    rw [List.length_cons]
    show (actAll v (s.act v Code.success c).2 cs).level ≤ _
    omega

/-- Only a read that takes something makes its caller try again, unless the call is interrupted. -/
theorem patience_act_lt (v : Vessel) (code : Code) (s : Latch) (c : Call)
    (h : retried c (s.act v code c).1 = true) : (s.act v code c).2.patience < s.patience := by
  cases c with
  | read fd size => exact Nat.add_lt_add_right (v.level_read_lt s.level fd size h) _
  | write fd bytes =>
    have hn : interrupted (v.write s.level fd bytes).1 = true := h
    rw [v.not_interrupted_write] at hn
    cases hn
  | _ => cases h

/-- What others do before a call is no more than what their beat counts for. -/
theorem patience_actAll_lt (v : Vessel) {s : Latch} {b : Beat} {bs : List Beat} (hs : s.beats = b :: bs) :
    (actAll v { s with beats := bs } b.others).patience < s.patience := by
  have hl := level_actAll_le v b.others { s with beats := bs }
  unfold patience scheduled
  rw [beats_actAll, hs, List.flatMap_cons, List.length_append, List.length_cons]
  dsimp only at hl ⊢
  omega

/-- A call takes effect, or leaves everything as it was. -/
theorem attempt_cases (v : Vessel) (b : Beat) (s : Latch) (c : Call) :
    s.attempt v b c = s.act v b.code c ∨ (s.attempt v b c).2 = s := by
  cases c with
  | read fd size =>
    unfold attempt
    dsimp only
    split
    · exact .inr rfl
    · exact .inl rfl
  | write fd bytes =>
    unfold attempt
    dsimp only
    split
    · exact .inr rfl
    · exact .inl rfl
  | _ => exact .inl rfl

theorem patience_answer_lt (v : Vessel) (s : Latch) (c : Call) (h : retried c (s.answer v c).1 = true) :
    (s.answer v c).2.patience < s.patience := by
  unfold answer at h ⊢
  split
  · rename_i hs
    rw [hs] at h
    exact patience_act_lt v Code.success s c h
  · rename_i b bs hs
    rw [hs] at h
    have hb := patience_actAll_lt v hs
    dsimp only at h
    generalize actAll v { s with beats := bs } b.others = u at h hb ⊢
    rcases attempt_cases v b u c with ha | ha
    · rw [ha] at h ⊢
      exact Nat.lt_trans (patience_act_lt v b.code u c h) hb
    · rw [ha]
      exact hb

theorem patience_answer_le (v : Vessel) (s : Latch) (c : Call) (h : c.isOfRingWait = true) :
    (s.answer v c).2.patience ≤ s.patience := by
  unfold answer
  split
  · cases c with
    | ringSubmit _ => exact Nat.le_refl _
    | ringWait _ _ => exact Nat.le_refl _
    | ringAdvance _ => exact Nat.le_refl _
    | _ => cases h
  · rename_i b bs hs
    have hb := Nat.le_of_lt (patience_actAll_lt v hs)
    cases c with
    | ringSubmit _ => exact hb
    | ringWait _ _ => exact hb
    | ringAdvance _ => exact hb
    | _ => cases h

/-- The kernel of a channel among threads. -/
def kernel (v : Vessel) : Kernel where
  State := Latch
  answer := answer v
  clock _ := 0
  patience := patience
  patience_lt := patience_answer_lt v
  patience_le := patience_answer_le v

/-- The state of the channel in a world. -/
def ofWorld (w : World (kernel v)) : Latch := w.kernel

end Latch

end Vigil
