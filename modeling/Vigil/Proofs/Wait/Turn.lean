import Vigil.Kind
import Vigil.Proofs.Wait.Passage
import Vigil.Proofs.Wait.Rounding

/-!
# The turns of a wait

A wait may have to ask its kernel more than once, each time for what is left of its timeout.

- `Call.Asks`: a waiting call is given what is left of a timeout, in the form that its kind of backend uses;
- `turns`: the waiting calls of a history, each with the clock at which it was made;
- `Resumes`: all turns but the last make the wait go on, and the last does not;
- `Resumed`: from one world to another there was a wait with such turns.

An attempt that waits once (`Polls`) may be repeated after interruptions; that is a wait with such turns
(`Polls.resumed`).
-/

namespace Vigil

/-! ## What is left of a timeout -/

/-- What is left of a timeout after some time, if it ends at all. -/
def Timeout.left (timeout : Timeout) (elapsed : Int) : Option Int := timeout.map fun t => max 0 (t - elapsed)

/-- What a waiting call of a kind of backend is given when so much is left of a timeout. -/
def Call.Asks (left : Option Int) : Kind → Call → Prop
  | .epoll, .epollWait _ _ millis =>
    millis = match left with
      | none => -1
      | some r => min ⌈(r : ℚ) / 1000000⌉ 2147483647
  | .kqueue, .keventWait _ _ timeout => Option.Rel Timespec.States timeout left
  | .ring, .ringWait _ timeout => Option.Rel Timespec.States timeout left
  | _, _ => False

theorem Deadline.remaining_after (start now t : Int) :
    (Deadline.after start (some t)).remaining now = max 0 (t - (now - start)) := by
  show max (start + t - now) 0 = _
  omega

theorem Deadline.millis_after (start now : Int) (timeout : Timeout) :
    (Deadline.after start timeout).millis now =
      match timeout.left (now - start) with
      | none => -1
      | some r => min ⌈(r : ℚ) / 1000000⌉ 2147483647 := by
  cases timeout with
  | none => rfl
  | some t =>
    show millisUp ((Deadline.after start (some t)).remaining now) = _
    rw [remaining_after]
    exact millisUp_eq (Int.le_max_left _ _)

theorem Deadline.timespec_after (start now : Int) (timeout : Timeout) :
    Option.Rel Timespec.States ((Deadline.after start timeout).timespec now) (timeout.left (now - start)) := by
  cases timeout with
  | none => exact .none
  | some t =>
    show Option.Rel Timespec.States (some (Timespec.ofNanos ((Deadline.after start (some t)).remaining now))) _
    rw [remaining_after]
    exact .some (Timespec.states_ofNanos (Int.le_max_left _ _))

/-- Time is left until the deadline just if less than the timeout has passed. -/
theorem Deadline.remaining_after_ne_zero (start now : Int) (timeout : Timeout) :
    (Deadline.after start timeout).remaining now ≠ 0 ↔ ∀ t, timeout = some t → now - start < t := by
  cases timeout with
  | none =>
    have hmax : maxNanos ≠ 0 := by decide
    exact iff_of_true hmax fun t h => by cases h
  | some t =>
    rw [remaining_after]
    constructor
    · intro h u hu
      cases hu
      omega
    · intro h
      have := h t rfl
      omega

/-! ## Turns -/

/-- Calls that wait for readiness. -/
def Call.isWait : Call → Bool
  | epollWait .. => true
  | keventWait .. => true
  | ringWait .. => true
  | _ => false

/-- Whether a waiting call was interrupted. -/
def Exchange.isInterrupted : Exchange → Bool
  | ⟨.epollWait .., r, _⟩ => interrupted r
  | ⟨.keventWait .., r, _⟩ => interrupted r
  | ⟨.ringWait .., r, _⟩ => interrupted r
  | _ => false

/-- Whether a ring's kernel let a wait have its completions. -/
def Exchange.isArrival : Exchange → Bool
  | ⟨.ringWait .., .ok _, _⟩ => true
  | _ => false

/-- A waiting call with its answer, and the clock when it was made. -/
structure Turn where
  asked : Int
  exchange : Exchange

/-- The waiting calls of a history that began at `t`. -/
def turns (t : Int) : List Exchange → List Turn
  | [] => []
  | x :: xs => if x.call.isWait then ⟨t, x⟩ :: turns x.time xs else turns x.time xs

theorem turns_append : ∀ (t : Int) (xs ys : List Exchange),
    turns t (xs ++ ys) = turns t xs ++ turns (clockAfter t xs) ys
  | _, [], _ => rfl
  | t, x :: xs, ys => by
    rw [List.cons_append, turns, turns, turns_append x.time xs ys, clockAfter]
    split
    · rw [List.cons_append]
    · rfl

theorem turns_eq_nil : ∀ {t : Int} {xs : List Exchange}, (∀ x ∈ xs, x.call.isWait = false) → turns t xs = []
  | _, [], _ => rfl
  | t, x :: xs, h => by
    rw [turns, h x List.mem_cons_self, if_neg Bool.false_ne_true]
    exact turns_eq_nil (List.forall_mem_cons.1 h).2

theorem turns_cons {t : Int} {x : Exchange} (h : x.call.isWait = true) (xs : List Exchange) :
    turns t (x :: xs) = ⟨t, x⟩ :: turns x.time xs := by
  rw [turns, if_pos h]

/-- All turns but the last make a wait go on, and the last does not. What `again` tells of a turn depends on its place,
and on the clock when the wait decides: that is when the next turn begins, or the wait ends. -/
def Resumes (again : Nat → Turn → Int → Prop) (ts : List Turn) (stop : Int) : Prop :=
  ∀ i t, ts[i]? = some t → (i + 1 < ts.length ↔ again i t ((ts[i + 1]?.map Turn.asked).getD stop))

theorem Resumes.singleton {again : Nat → Turn → Int → Prop} {t : Turn} {stop : Int} (h : ¬ again 0 t stop) :
    Resumes again [t] stop := by
  intro i u hu
  cases i with
  | zero =>
    cases hu
    simpa using h
  | succ i => cases hu

theorem Resumes.cons {again : Nat → Turn → Int → Prop} {t u : Turn} {ts : List Turn} {stop : Int}
    (h : again 0 t u.asked) (hs : Resumes (fun i => again (i + 1)) (u :: ts) stop) :
    Resumes again (t :: u :: ts) stop := by
  intro i x hx
  cases i with
  | zero =>
    cases hx
    simpa using h
  | succ i => simpa using hs i x hx

/-- When nothing but an interruption makes a wait go on, it resumes if all turns but the last were interrupted. -/
theorem Resumes.of_interrupted {again : Nat → Turn → Int → Prop}
    (hagain : ∀ i t c, again i t c ↔ t.exchange.isInterrupted = true) {last : Turn} (stop : Int)
    (hlast : last.exchange.isInterrupted = false) :
    ∀ {front : List Turn}, (∀ t ∈ front, t.exchange.isInterrupted = true) → Resumes again (front ++ [last]) stop := by
  intro front hfront i t ht
  rw [hagain, List.length_append, List.length_singleton]
  rcases Nat.lt_or_ge i front.length with hi | hi
  · rw [List.getElem?_append_left hi] at ht
    exact ⟨fun _ => hfront t (List.mem_of_getElem? ht), fun _ => by omega⟩
  · rw [List.getElem?_append_right hi] at ht
    have hx := List.mem_singleton.1 (List.mem_of_getElem? ht)
    subst hx
    constructor
    · intro h
      omega
    · intro h
      rw [hlast] at h
      cases h

/-! ## Attempts that are repeated -/

variable {K : Kernel}

/-- An attempt that waits once for what is left of a timeout of a wait that began at `start`. -/
structure Polls {α : Type} (kind : Kind) (timeout : Timeout) (start : Int) (attempt : Sys K (Fallible α)) : Prop where
  asks : ∀ w, ∃ x, Passage w [x] (attempt w).2 ∧ x.call.isWait = true ∧
    x.call.Asks (timeout.left (K.clock w.kernel - start)) kind ∧ x.isInterrupted = interrupted (attempt w).1
  patience_lt : ∀ w, interrupted (attempt w).1 = true → (attempt w).2.patience < w.patience

/-- Some turns of a wait that asked for what was left of its timeout each time. -/
def Asking (kind : Kind) (timeout : Timeout) (start : Int) (ts : List Turn) : Prop :=
  ∀ t ∈ ts, t.exchange.call.Asks (timeout.left (t.asked - start)) kind

/-- From one world to another an attempt was repeated after interruptions, and answered with `a` in the end. -/
structure Repeated {α : Type} (kind : Kind) (timeout : Timeout) (start : Int) (w : World K) (a : Fallible α)
    (v : World K) : Prop where
  passage : ∃ xs front last, Passage w xs v ∧ turns (K.clock w.kernel) xs = front ++ [last] ∧
    Asking kind timeout start (front ++ [last]) ∧ (∀ t ∈ front, t.exchange.isInterrupted = true) ∧
    last.exchange.isInterrupted = interrupted a

namespace Polls

variable {α : Type} {kind : Kind} {timeout : Timeout} {start : Int} {attempt : Sys K (Fallible α)}

theorem once (h : Polls kind timeout start attempt) (w : World K) :
    Repeated kind timeout start w (attempt w).1 (attempt w).2 := by
  obtain ⟨x, hp, hwait, hasks, hi⟩ := h.asks w
  exact ⟨[x], [], ⟨K.clock w.kernel, x⟩, hp, turns_cons hwait [], List.forall_mem_singleton.2 hasks,
    List.forall_mem_nil _, hi⟩

theorem again (h : Polls kind timeout start attempt) {w v : World K} {a : Fallible α}
    (hr : Repeated kind timeout start w a v) (ha : interrupted a = true) :
    Repeated kind timeout start w (attempt v).1 (attempt v).2 := by
  obtain ⟨xs, front, last, hp, hturns, hasking, hfront, hlast⟩ := hr
  obtain ⟨x, hx, hwait, hasks, hi⟩ := h.asks v
  refine ⟨xs ++ [x], front ++ [last], ⟨K.clock v.kernel, x⟩, hp.trans hx, ?_, ?_, ?_, hi⟩
  · rw [turns_append, hturns, turns_cons hwait, hp.clock]
    rfl
  · exact List.forall_mem_append.2 ⟨hasking, List.forall_mem_singleton.2 hasks⟩
  · exact List.forall_mem_append.2 ⟨hfront, List.forall_mem_singleton.2 (hlast.trans ha)⟩

/-- An attempt is repeated after interruptions, and never ends with one. -/
theorem insist (h : Polls kind timeout start attempt) (w : World K) :
    Repeated kind timeout start w (insist interrupted attempt w).1 (Vigil.insist interrupted attempt w).2 ∧
      interrupted (Vigil.insist interrupted attempt w).1 = false :=
  insist_induct h.patience_lt (h.once w) fun _ _ hr ha => h.again hr ha

end Polls

/-- The turns of a wait: each asked for what was left, all but the last made the wait go on, and the last was not
interrupted. -/
structure Resumed (kind : Kind) (timeout : Timeout) (again : Nat → Turn → Int → Prop) (w v : World K) : Prop where
  passage : ∃ xs, Passage w xs v ∧ Asking kind timeout (K.clock w.kernel) (turns (K.clock w.kernel) xs) ∧
    Resumes again (turns (K.clock w.kernel) xs) (K.clock v.kernel) ∧
    ∃ t, (turns (K.clock w.kernel) xs).getLast? = some t ∧ t.exchange.isInterrupted = false

/-- A wait that notes something, repeats an attempt after interruptions, and does what is no wait in the end. -/
theorem Polls.resumed {α : Type} {kind : Kind} {timeout : Timeout} {attempt : Sys K (Fallible α)} {w w₀ v : World K}
    {again : Nat → Turn → Int → Prop} (hagain : ∀ i t c, again i t c ↔ t.exchange.isInterrupted = true)
    (hstart : Passage w [] w₀) (h : Polls kind timeout (K.clock w.kernel) attempt)
    (hend : Reaches (·.isWait = false) (Vigil.insist interrupted attempt w₀).2 v) :
    Resumed kind timeout again w v := by
  obtain ⟨⟨xs, front, last, hp, hturns, hasking, hfront, hlast⟩, hi⟩ := h.insist w₀
  obtain ⟨ys, hq, hys⟩ := hend.passage
  have hclock : K.clock w₀.kernel = K.clock w.kernel := hstart.clock
  have hall : turns (K.clock w.kernel) (xs ++ ys) = front ++ [last] := by
    rw [turns_append, turns_eq_nil hys, List.append_nil, ← hclock, hturns]
  rw [hi] at hlast
  refine ⟨xs ++ ys, (hstart.trans hp).trans hq, ?_, ?_, last, ?_, hlast⟩
  · rw [hall]
    exact hasking
  · rw [hall]
    exact Resumes.of_interrupted hagain _ hlast hfront
  · rw [hall, List.getLast?_append]
    rfl

end Vigil
