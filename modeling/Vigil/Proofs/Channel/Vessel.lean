import Vigil.Channel
import Vigil.Config

/-!
# What a channel holds

A `Vessel` is what the descriptors of a channel stand for in a kernel: bytes queued in limited room, or a count with a
limit. Its level is all that a read or a write depends on.

- `Vessel.draw`, `Vessel.read`: a read takes bytes up to the size asked for, or the whole count. A read after which a
  drain ends leaves nothing (`level_read_eq_zero`), any other one takes something (`level_read_lt`);
- `Vessel.pour`, `Vessel.write`: a write of one signal. It leaves the vessel filled, whether it is refused or not
  (`level_pour_pos`), and is refused only by a vessel that was filled before (`pour_cases`).
-/

namespace Vigil

/-- A write of one signal. -/
abbrev Channel.signaling (c : Channel) : Call := .write c.writer c.signal

/-- A read of a drain. -/
abbrev Channel.draining (c : Channel) : Call := .read c.watched c.readSize

/-- How a channel of this kind is asked for. -/
def Channel.strategy : Channel → WakeStrategy
  | counter _ => .native
  | pipe .. => .pipe

/-- The kernel's side of a channel. -/
structure Vessel where
  channel : Channel
  capacity : Nat
  capacity_pos : 0 < capacity
  /-- Whether a write to a full vessel counts as done, with nothing more to be read, instead of being refused. -/
  absorbs : Bool := false

namespace Vessel

/-- The answer to a read at some level, and the level after it. -/
def draw (v : Vessel) (level size : Nat) : Fallible Nat × Nat :=
  if level = 0 then (.error Code.wouldBlock, 0)
  else
    match v.channel with
    | .pipe .. => (.ok (min size level), level - size)
    | .counter _ => (.ok size, 0)

/-- The answer to a write of one signal at some level, and the level after it. -/
def pour (v : Vessel) (level : Nat) : Fallible Nat × Nat :=
  if level < v.capacity then (.ok v.channel.signal.length, level + 1)
  else if v.absorbs then (.ok v.channel.signal.length, level)
  else (.error Code.wouldBlock, level)

/-- A read, of any descriptor. -/
def read (v : Vessel) (level : Nat) (fd : Descriptor) (size : Nat) : Fallible Nat × Nat :=
  if fd = v.channel.watched then v.draw level size else (.error Code.invalid, level)

/-- A write, to any descriptor. -/
def write (v : Vessel) (level : Nat) (fd : Descriptor) (bytes : List UInt8) : Fallible Nat × Nat :=
  if fd = v.channel.writer ∧ bytes = v.channel.signal then v.pour level else (.error Code.invalid, level)

/-! ## Reading -/

theorem level_read_le (v : Vessel) (level : Nat) (fd : Descriptor) (size : Nat) : (v.read level fd size).2 ≤ level := by
  unfold read draw
  split
  · split
    · exact Nat.zero_le _
    · split
      · exact Nat.sub_le _ _
      · exact Nat.zero_le _
  · exact Nat.le_refl _

/-- A read whose answer may make its caller read again takes something. -/
theorem level_read_lt (v : Vessel) (level : Nat) (fd : Descriptor) (size : Nat)
    (h : retried (.read fd size) (v.read level fd size).1 = true) : (v.read level fd size).2 < level := by
  unfold read draw at h ⊢
  split at h
  · rename_i hfd
    rw [if_pos hfd]
    split at h
    · cases h
    · rename_i hl
      rw [if_neg hl]
      split at h
      · have : 0 < min size level := of_decide_eq_true h
        dsimp only
        omega
      · exact Nat.pos_of_ne_zero hl
  · cases h

/-- The read that ends a drain leaves nothing. -/
theorem level_read_eq_zero (v : Vessel) (level : Nat)
    (h : v.channel.readAgain (v.read level v.channel.watched v.channel.readSize).1 = false) :
    (v.read level v.channel.watched v.channel.readSize).2 = 0 := by
  unfold read draw at h ⊢
  rw [if_pos rfl] at h ⊢
  split at h
  · rename_i hl
    rw [if_pos hl]
  · rename_i hl
    rw [if_neg hl]
    cases hc : v.channel with
    | pipe reader writer =>
      rw [hc] at h
      have : ¬ 0 < min 64 level := of_decide_eq_false h
      omega
    | counter fd => rfl

/-! ## Writing -/

/-- A write leaves the vessel filled, also if it is refused. -/
theorem level_pour_pos (v : Vessel) (level : Nat) : 0 < (v.pour level).2 := by
  have := v.capacity_pos
  unfold pour
  split
  · exact Nat.succ_pos _
  · split <;> dsimp only <;> omega

/-- A write is done, or it is refused by a vessel that is filled already. -/
theorem pour_cases (v : Vessel) (level : Nat) :
    (∃ n, (v.pour level).1 = .ok n) ∨ (v.pour level).1 = .error Code.wouldBlock ∧ 0 < level := by
  have := v.capacity_pos
  unfold pour
  split
  · exact .inl ⟨_, rfl⟩
  · split
    · exact .inl ⟨_, rfl⟩
    · exact .inr ⟨rfl, by omega⟩

theorem level_write_le (v : Vessel) (level : Nat) (fd : Descriptor) (bytes : List UInt8) :
    (v.write level fd bytes).2 ≤ level + 1 := by
  unfold write pour
  split
  · split
    · exact Nat.le_refl _
    · split <;> exact Nat.le_succ _
  · exact Nat.le_succ _

/-- No write is interrupted by the vessel. -/
theorem not_interrupted_write (v : Vessel) (level : Nat) (fd : Descriptor) (bytes : List UInt8) :
    interrupted (v.write level fd bytes).1 = false := by
  unfold write
  split
  · obtain ⟨n, h⟩ | ⟨h, -⟩ := v.pour_cases level <;> rw [h] <;> rfl
  · rfl

theorem write_signal (v : Vessel) (level : Nat) :
    v.write level v.channel.writer v.channel.signal = v.pour level :=
  if_pos ⟨rfl, rfl⟩

end Vessel

namespace Channel

/-- Reads that a drain repeats are reads that some caller repeats. -/
theorem retried_of_readAgain (c : Channel) {fd : Descriptor} {size : Nat} {r : Fallible Nat}
    (h : c.readAgain r = true) : retried (.read fd size) r = true := by
  cases r with
  | error code => exact h
  | ok n =>
    cases c with
    | pipe reader writer => exact h
    | counter fd => cases h

/-- A kernel whose files can be set up, which changes nothing. -/
structure SetsUp (K : Kernel) : Prop where
  getFlags : ∀ s fd, K.answer s (.getFlags fd) = (.ok 0, s)
  setFlags : ∀ s fd flags, K.answer s (.setFlags fd flags) = (.ok (), s)
  getDescriptorFlags : ∀ s fd, K.answer s (.getDescriptorFlags fd) = (.ok 0, s)
  setDescriptorFlags : ∀ s fd flags, K.answer s (.setDescriptorFlags fd flags) = (.ok (), s)

theorem SetsUp.setUpAll {K : Kernel} (h : SetsUp K) : ∀ (fds : List Descriptor) (w : World K),
    (Channel.setUpAll fds w).1 = Code.success ∧ (Channel.setUpAll fds w).2.kernel = w.kernel
  | [], _ => ⟨rfl, rfl⟩
  | fd :: fds, w => by
    have hone : (setUp fd w).1 = Code.success ∧ (setUp fd w).2.kernel = w.kernel := by
      rw [setUp_eq]
      simp [Sys.bind_apply, Sys.pure_apply, call, h.getFlags, h.setFlags, h.getDescriptorFlags,
        h.setDescriptorFlags]
    obtain ⟨hcodes, hkernel⟩ := h.setUpAll fds (setUp fd w).2
    unfold Channel.setUpAll
    rw [Sys.bind_apply, hone.1, if_pos rfl]
    exact ⟨hcodes, hkernel.trans hone.2⟩

/-- What holds after the first read of a drain and after each repeated one holds at its end. -/
theorem drain_induct {K : Kernel} (c : Channel) {inv : Fallible Nat → World K → Prop} {w : World K}
    (first : inv (call c.draining w).1 (call c.draining w).2)
    (repeated : ∀ r u, inv r u → c.readAgain r = true → inv (call c.draining u).1 (call c.draining u).2) :
    ∃ r, inv r (c.drain w).2 ∧ c.readAgain r = false := by
  rw [drain_eq]
  exact ⟨_, insist_induct (fun _ h => patience_call_lt (c.retried_of_readAgain h)) first repeated⟩

/-- What holds after the first write of a wake-up and after each repeated one holds at its end. -/
theorem wake_induct {K : Kernel} (c : Channel) {inv : Fallible Nat → World K → Prop} {w : World K}
    (first : inv (call c.signaling w).1 (call c.signaling w).2)
    (repeated : ∀ r u, inv r u → interrupted r = true → inv (call c.signaling u).1 (call c.signaling u).2) :
    ∃ r, inv r (c.wake w).2 ∧ interrupted r = false ∧ ((c.wake w).1 = match r with
      | .ok _ => Code.success
      | .error e => if e = Code.wouldBlock then Code.success else e) := by
  have hμ : ∀ u : World K, interrupted (call c.signaling u).1 = true → (call c.signaling u).2.patience < u.patience :=
    fun _ h => patience_call_lt h
  obtain ⟨h, hi⟩ := insist_induct hμ first repeated
  rw [wake_eq, Sys.bind_apply]
  generalize insist interrupted (call c.signaling) w = r at h hi ⊢
  obtain ⟨a, u⟩ := r
  refine ⟨a, ?_, hi, ?_⟩
  · cases a <;> exact h
  · cases a <;> rfl

end Channel

end Vigil
