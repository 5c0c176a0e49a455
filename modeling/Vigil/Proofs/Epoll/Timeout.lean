import Vigil.Proofs.Epoll.PollSet
import Vigil.Proofs.Wait.Resumption

/-!
# How long a wait on a poll set lasts

A kernel keeps time if its clock does not go back, and if its waits last for all of their milliseconds when they hand
over nothing (`Kernel.KeepsTime`). Over such a kernel a wait that leaves its buffer empty has lasted for its timeout, or
for the longest duration that a waiting call takes, whatever interrupted it (`wait_lasts`). A timeout beyond that
duration ends early, as the deadline is not looked at again (`wait_ends_early`).
-/

namespace Vigil

/-- The kernel's clock does not go back, and its waits on poll sets last for their time if they hand over nothing. A
wait that fails says why. -/
structure Kernel.KeepsTime (K : Kernel) : Prop where
  clock_le : ∀ s c, K.clock s ≤ K.clock (K.answer s c).2
  lasts : ∀ s set limit millis rs, (K.answer s (.epollWait set limit millis)).1 = .ok rs → rs.count = 0 → 0 ≤ millis →
    K.clock s + millis * nanosPerMilli ≤ K.clock (K.answer s (.epollWait set limit millis)).2
  fails : ∀ s set limit millis code, (K.answer s (.epollWait set limit millis)).1 = .error code → code ≠ Code.success

variable {K : Kernel}

theorem Reaches.clock_le (hK : K.KeepsTime) {P : Call → Prop} {w v : World K} (h : Reaches P w v) :
    K.clock w.kernel ≤ K.clock v.kernel := by
  induction h with
  | refl => exact Int.le_refl _
  | noted _ _ ih => exact ih
  | called _ _ ih => exact Int.le_trans ih (hK.clock_le _ _)

/-- Nothing is committed of a batch just if it counts nothing. -/
theorem Buffer.count_of_raw_fill {b : Buffer} {rs : Batch Record} (h : (b.fill rs).raw = []) : rs.count = 0 := by
  have hl : (b.fill rs).raw.length = min rs.count Buffer.capacity := Buffer.length_raw _
  have hc : 0 < Buffer.capacity := by decide
  rw [h, List.length_nil] at hl
  omega

/-! ## A kernel that keeps time -/

namespace PollSet

variable {v : Vessel}

theorem clock_control (s : PollSet) (op : Control) (fd : Descriptor) (entry : Option PollRecord) :
    (s.control op fd entry).2.clock = s.clock := by
  unfold control
  split <;> rfl

/-- A sweep takes some time and, if it hands over nothing, all the time that it was given. -/
theorem clock_sweep (s : PollSet) (limit : Nat) (millis : Int) :
    s.clock ≤ (s.sweep v limit millis).2.clock ∧
      ∀ rs, (s.sweep v limit millis).1 = .ok rs → rs.count = 0 →
        s.clock + millis * nanosPerMilli ≤ (s.sweep v limit millis).2.clock := by
  have hmillis : millis * nanosPerMilli ≤ max 0 millis * nanosPerMilli ∧ 0 ≤ max 0 millis * nanosPerMilli := by
    unfold nanosPerMilli
    omega
  unfold sweep
  cases s.next.interrupted with
  | true =>
    refine ⟨?_, fun rs hr => by cases hr⟩
    show s.clock ≤ s.clock + s.next.elapsed
    omega
  | false =>
    let idle := if (s.selection v s.next limit).isEmpty then max 0 millis * nanosPerMilli else 0
    have hidle : 0 ≤ idle := by
      show 0 ≤ if (s.selection v s.next limit).isEmpty then max 0 millis * nanosPerMilli else 0
      split
      · exact hmillis.2
      · exact Int.le_refl _
    constructor
    · show s.clock ≤ s.clock + s.next.elapsed + idle
      omega
    · intro rs hr hrs
      cases hr
      have hnone : s.selection v s.next limit = [] :=
        List.eq_nil_of_length_eq_zero ((s.length_selection s.next limit).symm.trans hrs)
      have hall : idle = max 0 millis * nanosPerMilli := if_pos (by rw [hnone]; rfl)
      show s.clock + millis * nanosPerMilli ≤ s.clock + s.next.elapsed + idle
      omega

theorem keepsTime (v : Vessel) : (kernel v).KeepsTime where
  clock_le s c := by
    cases c with
    | epollControl set op fd entry =>
      show s.clock ≤ (if set = s.set then s.control op fd entry else (.error Code.invalid, s)).2.clock
      split
      · exact Int.le_of_eq (s.clock_control op fd entry).symm
      · exact Int.le_refl _
    | epollWait set limit millis =>
      show s.clock ≤ (if set = s.set then s.sweep v limit millis else (.error Code.invalid, s)).2.clock
      split
      · exact (s.clock_sweep limit millis).1
      · exact Int.le_refl _
    | eventfd initial flags =>
      show s.clock ≤ (answer v s (.eventfd initial flags)).2.clock
      unfold answer
      cases v.channel <;> exact Int.le_refl _
    | socketpair =>
      show s.clock ≤ (answer v s .socketpair).2.clock
      unfold answer
      cases v.channel <;> exact Int.le_refl _
    | _ => exact Int.le_refl _
  lasts s set limit millis rs hr hrs _ := by
    have hr : (if set = s.set then s.sweep v limit millis else (.error Code.invalid, s)).1 = .ok rs := hr
    show s.clock + _ ≤ (if set = s.set then s.sweep v limit millis else (.error Code.invalid, s)).2.clock
    split at hr
    · rename_i hset
      rw [if_pos hset]
      exact (s.clock_sweep limit millis).2 rs hr hrs
    · cases hr
  fails s set limit millis code hr := by
    have hr : (if set = s.set then s.sweep v limit millis else (.error Code.invalid, s)).1 = .error code := hr
    have hcodes : Code.interrupted ≠ Code.success ∧ Code.invalid ≠ Code.success := by decide
    split at hr
    · unfold sweep at hr
      dsimp only at hr
      split at hr
      · cases hr
        exact hcodes.1
      · cases hr
    · cases hr
      exact hcodes.2

end PollSet

/-! ## Waits -/

namespace Epoll

/-- A poll of a wait that began at `start` answered with `a`: if it handed over nothing, then the wait has lasted for
its timeout by now, as far as there are milliseconds for it. -/
structure Lasted (t start : Int) (a : Fallible (Batch PollRecord)) (w : World K) : Prop where
  began : start ≤ K.clock w.kernel
  fails : ∀ code, a = .error code → code ≠ Code.success
  lasts : ∀ rs, a = .ok rs → rs.count = 0 → min t longest ≤ K.clock w.kernel - start

theorem lasted_poll (hK : K.KeepsTime) (p : Epoll) (t start : Int) {w : World K} (hw : start ≤ K.clock w.kernel) :
    let r := p.poll (Deadline.after start (some t)) w
    Lasted t start r.1 r.2 := by
  rw [poll_apply]
  intro r
  let left := max 0 (t - (K.clock w.kernel - start))
  have hmillis : (Deadline.after start (some t)).millis (K.clock w.kernel) = millisUp left :=
    congrArg millisUp (Deadline.remaining_after start (K.clock w.kernel) t)
  refine ⟨Int.le_trans hw (hK.clock_le _ _), fun code hr => hK.fails _ _ _ _ code hr, fun rs hr hrs => ?_⟩
  have hlasts : K.clock w.kernel + millisUp left * nanosPerMilli ≤ K.clock r.2.kernel := by
    rw [← hmillis]
    exact hK.lasts _ _ _ _ rs hr hrs (by rw [hmillis]; exact millisUp_nonneg _)
  have hle : min left longest ≤ millisUp left * nanosPerMilli := le_millisUp left
  have hleft : t - (K.clock w.kernel - start) ≤ left := Int.le_max_right _ _
  omega

theorem lasted_insist (hK : K.KeepsTime) (p : Epoll) (t start : Int) {w : World K} (hw : start ≤ K.clock w.kernel) :
    let r := insist interrupted (p.poll (Deadline.after start (some t))) w
    Lasted t start r.1 r.2 :=
  (insist_induct (p.polls (some t) start).patience_lt (lasted_poll hK p t start hw)
    fun _ _ h _ => lasted_poll hK p t start h.began).1

/-- **Timeouts.** Over a kernel that keeps time, a wait that succeeds with an empty buffer has lasted for its timeout,
or for the longest duration that a waiting call takes if the timeout is longer than that. -/
theorem wait_lasts (hK : K.KeepsTime) (p : Epoll) (b : Buffer) (t : Int) (w : World K) :
    let r := p.wait b (some t) w
    r.1.1 = Code.success → r.1.2.raw = [] → min t longest ≤ K.clock r.2.kernel - K.clock w.kernel := by
  have h := lasted_insist hK p t (K.clock (note (.wait p.fd (some t)) w).2.kernel) (Int.le_refl _)
  rw [wait_apply]
  dsimp only at h ⊢
  generalize insist interrupted _ _ = r at h ⊢
  obtain ⟨a, u⟩ := r
  cases a with
  | error code => exact fun hr => absurd hr (h.fails code rfl)
  | ok rs =>
    intro _ hraw
    have hcount : rs.count = 0 := Buffer.count_of_raw_fill hraw
    have hreattach : Confined (K := K) (fun _ => True) p.reattach :=
      (p.built_reattach (fun _ _ _ _ => trivial) fun _ _ => trivial).confined
    have hend : K.clock u.kernel ≤ K.clock (p.reattach (note (.fired p.fd rs.count) u).2).2.kernel :=
      (hreattach (note (.fired p.fd rs.count) u).2).clock_le hK
    have hlasts : min t longest ≤ K.clock u.kernel - K.clock w.kernel := h.lasts rs rfl hcount
    show min t longest ≤ K.clock (p.reattach (note (.fired p.fd rs.count) u).2).2.kernel - K.clock w.kernel
    omega

/-- A wait of three milliseconds is interrupted after one and a half, and goes on for two. -/
theorem wait_lasts_interrupted :
    let v : Vessel := { channel := .counter 4, capacity := 1, capacity_pos := Nat.one_pos }
    let w : World (PollSet.kernel v) :=
      { kernel := { set := 3, sweeps := [{ interrupted := true, elapsed := 1500000 }], clock := 70 } }
    let r := ({ fd := 3 } : Epoll).wait Buffer.empty (some 3000000) w
    (PollSet.kernel v).KeepsTime ∧ r.1.1 = Code.success ∧ r.1.2.raw = [] ∧
      3000000 ≤ (PollSet.kernel v).clock r.2.kernel - (PollSet.kernel v).clock w.kernel := by
  intro v w r
  have hcode : r.1.1 = Code.success := by decide +kernel
  have hraw : r.1.2.raw = [] := by decide +kernel
  have hlasts := wait_lasts (PollSet.keepsTime v) { fd := 3 } Buffer.empty 3000000 w hcode hraw
  rw [show min 3000000 longest = 3000000 by decide] at hlasts
  exact ⟨PollSet.keepsTime v, hcode, hraw, hlasts⟩

/-- A wait for one nanosecond more than a waiting call takes in milliseconds ends one nanosecond early. -/
theorem wait_ends_early :
    let v : Vessel := { channel := .counter 4, capacity := 1, capacity_pos := Nat.one_pos }
    let w : World (PollSet.kernel v) := { kernel := { set := 3 } }
    let r := ({ fd := 3 } : Epoll).wait Buffer.empty (some 2147483647000001) w
    (PollSet.kernel v).KeepsTime ∧ r.1.1 = Code.success ∧ r.1.2.raw = [] ∧
      ¬ 2147483647000001 ≤ (PollSet.kernel v).clock r.2.kernel - (PollSet.kernel v).clock w.kernel := by
  intro v w r
  exact ⟨PollSet.keepsTime v, by decide +kernel, by decide +kernel, by decide +kernel⟩

end Epoll

end Vigil
