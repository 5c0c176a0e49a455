import Vigil.Process

/-!
# Programs over a kernel

- `World`: the state of a kernel, with all exchanges with it so far, and a process;
- `Sys`: programs that read and change a world. `call` asks the kernel, `note` tells something, and `errno` reads the
  number of the last error. Read at once after a call that failed, it is the number of that failure (`call_congr`);
- `persist` and `insist`: an attempt repeated while its result asks for it. The kernel's patience bounds the repeats, so
  that both are total. The bound never ends them: `persist_induct` and `insist_induct` carry an invariant to a result
  that asks for nothing more;
- `Confined`: programs that make only calls of some kind;
- `Built`: programs that are put together from such calls, notes, the clock and the patience. Each program is looked
  through once to see that it is; that it is confined follows (`Built.confined`);
- `Patient`: programs that do not make the kernel more patient, which is what a bound over several of them needs. Those
  that make only calls of a wait on a ring are (`Confined.patient`).
-/

namespace Vigil

/-- A kernel's state, what it was asked so far, the oldest first, and the process that asked. -/
structure World (K : Kernel) where
  kernel : K.State
  trace : List Exchange := []
  process : Process := {}

/-- Programs over a kernel. -/
abbrev Sys (K : Kernel) (α : Type) : Type := StateM (World K) α

variable {K : Kernel}

/-- How often the kernel will still make its callers try again, at most. -/
def World.patience (w : World K) : Nat := K.patience w.kernel

/-- Asks the kernel. An error leaves its number in the process. -/
def call (c : Call) : Sys K (Reply c) := fun w =>
  let (reply, s) := K.answer w.kernel c
  (reply, ⟨s, w.trace ++ [⟨c, reply, K.clock s⟩], w.process.failed (c.errorLeft reply)⟩)

/-- The number of the last error. -/
def errno : Sys K Code := fun w => (w.process.errno, w)

/-- The outcome of a call, with the number of its error as the process finds it. -/
def settled {α : Type} : Fallible α → Sys K (Fallible α)
  | .error _ => do pure (.error (← errno))
  | .ok a => pure (.ok a)

/-- Tells something, if debugging is on. -/
def note (n : Note) : Sys K Unit := fun w => ((), { w with process := w.process.noted n })

/-- The clock. -/
def now : Sys K Int := fun w => (K.clock w.kernel, w)

/-- Reads how often the kernel will still make its callers try again, at most. -/
def patience : Sys K Nat := fun w => (w.patience, w)

namespace Sys

variable {α β : Type}

theorem pure_apply (a : α) (w : World K) : (pure a : Sys K α) w = (a, w) := rfl

theorem bind_apply (m : Sys K α) (f : α → Sys K β) (w : World K) : (m >>= f) w = f (m w).1 (m w).2 := rfl

theorem ite_apply {c : Prop} [Decidable c] (m n : Sys K α) (w : World K) :
    (if c then m else n) w = if c then m w else n w := by
  split <;> rfl

theorem now_apply (w : World K) : now w = (K.clock w.kernel, w) := rfl

theorem errno_apply {code : Code} {w : World K} (h : w.process.errno = code) : errno w = (code, w) := by
  subst h
  rfl

theorem errno_bind {f : Code → Sys K β} {code : Code} {w : World K} (h : w.process.errno = code) :
    (errno >>= f) w = f code w := by
  rw [bind_apply, errno_apply h]

end Sys

/-! ## Error numbers -/

/-- What is done after a call may take the number of its error from the process, as long as nothing comes in between. -/
theorem call_congr {β : Type} {c : Call} {f g : Reply c → Sys K β}
    (h : ∀ reply w, (∀ code, c.errorLeft reply = some code → w.process.errno = code) → f reply w = g reply w) :
    (call c >>= f) = (call c >>= g) := by
  funext w
  refine h _ _ fun code hcode => ?_
  show (w.process.failed (c.errorLeft (K.answer w.kernel c).1)).errno = code
  have hleft : c.errorLeft (K.answer w.kernel c).1 = some code := hcode
  rw [hleft]
  rfl

theorem settled_apply {α : Type} {r : Fallible α} {w : World K} (h : ∀ code, r = .error code → w.process.errno = code) :
    settled r w = (r, w) := by
  cases r with
  | error code => exact Sys.errno_bind (h code rfl)
  | ok a => rfl

/-! ## Repetition -/

/-- Goes on from a state while it asks for it, at most `n` times. -/
def persist {σ : Type} (again : σ → Bool) (step : σ → Sys K σ) : Nat → σ → Sys K σ
  | 0, s => pure s
  | n + 1, s => if again s then do persist again step n (← step s) else pure s

/-- Repeats an attempt while its result asks for it. -/
def insist {α : Type} (again : α → Bool) (attempt : Sys K α) : Sys K α := do
  let first ← attempt
  persist again (fun _ => attempt) ((← patience) + 1) first

theorem persist_stop {σ : Type} {again : σ → Bool} {step : σ → Sys K σ} {s : σ} (h : again s = false) (n : Nat)
    (w : World K) : persist again step n s w = (s, w) := by
  cases n with
  | zero => rfl
  | succ n =>
    unfold persist
    rw [h, if_neg Bool.false_ne_true]
    rfl

theorem persist_go {σ : Type} {again : σ → Bool} {step : σ → Sys K σ} {s : σ} (h : again s = true) (n : Nat)
    (w : World K) : persist again step (n + 1) s w = persist again step n (step s w).1 (step s w).2 := by
  conv => lhs; unfold persist
  rw [h, if_pos rfl]
  rfl

/-- An attempt whose result asks for nothing more is made once. -/
theorem insist_stop {α : Type} {again : α → Bool} {attempt : Sys K α} {w : World K} (h : again (attempt w).1 = false) :
    insist again attempt w = attempt w :=
  persist_stop h _ _

/-- What holds at first and after each step holds at the end, and the end asks for no more, if each step that asks for
more lowers a measure below the bound. -/
theorem persist_induct {σ : Type} {again : σ → Bool} {step : σ → Sys K σ} {inv : σ → World K → Prop}
    (μ : σ → World K → Nat)
    (h : ∀ s w, inv s w → again s = true →
      inv (step s w).1 (step s w).2 ∧ (again (step s w).1 = true → μ (step s w).1 (step s w).2 < μ s w)) :
    ∀ n s w, inv s w → (again s = true → μ s w < n) →
      inv (persist again step n s w).1 (persist again step n s w).2 ∧ again (persist again step n s w).1 = false
  | 0, s, w, hi, hn => ⟨hi, Bool.eq_false_iff.2 fun ha => Nat.not_lt_zero _ (hn ha)⟩
  | n + 1, s, w, hi, hn => by
    unfold persist
    cases ha : again s with
    | false => exact ⟨hi, ha⟩
    | true =>
      have ⟨hi', hμ⟩ := h s w hi ha
      exact persist_induct μ h n _ _ hi' fun hb => Nat.lt_of_lt_of_le (hμ hb) (Nat.le_of_lt_succ (hn ha))

/-- What holds after the first attempt and after each repeated one holds at the end, and the end asks for no more, if
each attempt that asks for more costs patience. -/
theorem insist_induct {α : Type} {again : α → Bool} {attempt : Sys K α} {inv : α → World K → Prop}
    (hμ : ∀ w, again (attempt w).1 = true → (attempt w).2.patience < w.patience) {w : World K}
    (first : inv (attempt w).1 (attempt w).2)
    (repeated : ∀ a w, inv a w → again a = true → inv (attempt w).1 (attempt w).2) :
    inv (insist again attempt w).1 (insist again attempt w).2 ∧ again (insist again attempt w).1 = false :=
  persist_induct (fun _ w => w.patience) (fun a w hi ha => ⟨repeated a w hi ha, hμ w⟩) _ _ _ first
    fun _ => Nat.lt_succ_self _

/-- A reply after which the caller tries again costs patience. -/
theorem patience_call_lt {c : Call} {w : World K} (h : retried c (call c w).1 = true) :
    (call c w).2.patience < w.patience :=
  K.patience_lt w.kernel c h

/-! ## Confined programs -/

/-- One world comes after another by notes, and by calls of some kind. -/
inductive Reaches (P : Call → Prop) (w : World K) : World K → Prop
  | refl : Reaches P w w
  | noted {v : World K} (n : Note) (h : Reaches P w v) : Reaches P w (note n v).2
  | called {v : World K} {c : Call} (hc : P c) (h : Reaches P w v) : Reaches P w (call c v).2

theorem Reaches.trans {P : Call → Prop} {w v u : World K} (h : Reaches P w v) (h' : Reaches P v u) :
    Reaches P w u := by
  induction h' with
  | refl => exact h
  | noted n _ ih => exact ih.noted n
  | called hc _ ih => exact ih.called hc

/-- A program that makes only calls of some kind. -/
def Confined {α : Type} (P : Call → Prop) (m : Sys K α) : Prop := ∀ w, Reaches P w (m w).2

/-! ## Built programs -/

/-- A program that is put together from calls of some kind, notes, the clock and the patience. -/
inductive Built (P : Call → Prop) : {α : Type} → Sys K α → Prop
  | pure {α : Type} (a : α) : Built P (pure a)
  | note (n : Note) : Built P (note n)
  | now : Built P now
  | patience : Built P patience
  | call {c : Call} (h : P c) : Built P (call c)
  | bind {α β : Type} {m : Sys K α} {f : α → Sys K β} (hm : Built P m) (hf : ∀ a, Built P (f a)) : Built P (m >>= f)

namespace Built

variable {α : Type} {P : Call → Prop}

theorem ite {c : Prop} [Decidable c] {m n : Sys K α} (hm : Built P m) (hn : Built P n) :
    Built P (if c then m else n) := by
  split
  · exact hm
  · exact hn

theorem persist {again : α → Bool} {step : α → Sys K α} (h : ∀ a, Built P (step a)) :
    ∀ n a, Built P (persist again step n a)
  | 0, a => .pure a
  | n + 1, a => by
    unfold Vigil.persist
    exact .ite ((h a).bind (persist h n)) (.pure a)

theorem insist {again : α → Bool} {attempt : Sys K α} (h : Built P attempt) : Built P (insist again attempt) :=
  h.bind fun first => Built.patience.bind fun _ => .persist (fun _ => h) _ first

/-- A program that is put together from calls of some kind makes no others. -/
theorem confined {m : Sys K α} (h : Built P m) : Confined P m := by
  induction h with
  | pure a => exact fun _ => .refl
  | note n => exact fun _ => Reaches.refl.noted n
  | now => exact fun _ => .refl
  | patience => exact fun _ => .refl
  | call hc => exact fun _ => Reaches.refl.called hc
  | bind _ _ ihm ihf => exact fun w => (ihm w).trans (ihf _ _)

end Built

/-! ## Patience -/

theorem Reaches.patience_le {w v : World K} (h : Reaches (·.isOfRingWait = true) w v) : v.patience ≤ w.patience := by
  induction h with
  | refl => exact Nat.le_refl _
  | noted _ _ ih => exact ih
  | called hc _ ih => exact Nat.le_trans (K.patience_le _ _ hc) ih

/-- A program after which the kernel is not more patient than before. -/
def Patient {α : Type} (m : Sys K α) : Prop := ∀ w, (m w).2.patience ≤ w.patience

/-- The calls of a wait on a ring do not make the kernel more patient. -/
theorem Confined.patient {α : Type} {m : Sys K α} (h : Confined (·.isOfRingWait = true) m) : Patient m :=
  fun w => (h w).patience_le

end Vigil
