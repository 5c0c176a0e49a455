import Vigil.Reading

/-!
# What readers see

Readers see the committed records that do not belong to the wake-up channel, each once and in order.

- `Buffer.shownFrom`: those records, from a place on;
- `Buffer.Stands`: a cursor stands where some of them are left. Placing a cursor leaves all of them
  (`Buffer.stands_start`), and moving it on leaves all but the first (`Buffer.Stands.next`). At the end nothing is left
  (`Buffer.Stands.atEnd_iff`);
- `Reading.lengthAfter`, `Reading.recordAfter`: what edits make of a buffer, whatever its reader does meanwhile;
- `iteration_exact`: what readers see after any edits.
-/

namespace Vigil

/-- A record that is not of the wake-up channel. -/
abbrev Record.IsShown (r : Record) : Prop := r.key ≠ notifyKey

theorem Record.isNotify_eq_false {r : Record} : r.isNotify = false ↔ r.IsShown := by
  simp [isNotify]

namespace Buffer

/-! ## Places -/

/-- The committed records from a place on that readers see. -/
def shownFrom (b : Buffer) (i : Nat) : List Record := (b.raw.drop i).filter (·.IsShown)

/-- A cursor that was placed in a buffer as it is stands where some records are left to see, the first of them at the
cursor. -/
structure Stands (b : Buffer) (c : Cursor) (rs : List Record) : Prop where
  stop : c.stop = b.length
  position_le : c.position ≤ b.length
  left : b.shownFrom c.position = rs
  head : (b.raw.drop c.position).head? = rs.head?

/-- Skipping moves past records that are not shown, to one that is or to the end of the first `n`. -/
theorem skip_spec : ∀ (rs : List Record) (i n : Nat), ∃ k ≤ n, skip (i + n) rs i = i + k ∧
    ((rs.take n).drop k).filter (·.IsShown) = (rs.take n).filter (·.IsShown) ∧
    ((rs.take n).drop k).head? = ((rs.take n).filter (·.IsShown)).head?
  | [], i, n => ⟨0, Nat.zero_le n, rfl, by simp, by simp⟩
  | r :: rs, i, 0 => by
    refine ⟨0, Nat.le_refl 0, ?_, rfl, rfl⟩
    simp [skip]
  | r :: rs, i, n + 1 => by
    have hne : (i != i + (n + 1)) = true := by simp
    cases hr : r.isNotify with
    | false =>
      have hshown : r.IsShown := Record.isNotify_eq_false.1 hr
      refine ⟨0, Nat.zero_le _, ?_, rfl, ?_⟩
      · simp [skip, hr]
      · simp [hshown]
    | true =>
      have hnot : ¬ r.IsShown := by
        rw [← Record.isNotify_eq_false, hr]
        exact Bool.noConfusion
      obtain ⟨k, hk, hskip, hleft, hhead⟩ := skip_spec rs (i + 1) n
      refine ⟨k + 1, Nat.succ_le_succ hk, ?_, ?_, ?_⟩
      · rw [skip, hne, hr, Bool.and_true, if_pos rfl]
        rw [show i + (n + 1) = i + 1 + n by omega, hskip]
        omega
      · simpa [hnot] using hleft
      · simpa [hnot] using hhead

variable {b : Buffer} {c : Cursor} {rs : List Record}

theorem drop_raw (b : Buffer) (i : Nat) : b.raw.drop i = (b.slots.drop i).take (b.length - i) := by
  rw [raw, List.drop_take]

/-- A cursor that settles from a place on stands where the records from there on are left. -/
theorem stands_settle {i : Nat} (hi : i ≤ b.length) : b.Stands (b.settle i b.length) (b.shownFrom i) := by
  obtain ⟨k, hk, hskip, hleft, hhead⟩ := skip_spec (b.slots.drop i) i (b.length - i)
  rw [Nat.add_sub_cancel' hi] at hskip
  rw [← drop_raw, List.drop_drop] at hleft hhead
  have hposition : (b.settle i b.length).position = i + k := hskip
  refine ⟨rfl, ?_, ?_, ?_⟩
  · omega
  · rw [hposition]
    exact hleft
  · rw [hposition]
    exact hhead

theorem stands_start (b : Buffer) : b.Stands b.start (b.shownFrom 0) := stands_settle (Nat.zero_le _)

namespace Stands

/-- At the end nothing is left to see, and nowhere else. -/
theorem atEnd_iff (h : b.Stands c rs) : b.atEnd c = true ↔ rs = [] := by
  have hle : b.raw.length ≤ c.position ↔ rs = [] := by
    rw [← List.drop_eq_nil_iff, ← List.head?_eq_none_iff, h.head, List.head?_eq_none_iff]
  have hposition := h.position_le
  rw [length_raw] at hle
  rw [← hle]
  show (c.position == b.length) = true ↔ _
  rw [beq_iff_eq]
  omega

theorem not_atEnd {r : Record} (h : b.Stands c (r :: rs)) : ¬ b.atEnd c = true := fun hend =>
  List.cons_ne_nil r rs (h.atEnd_iff.1 hend)

/-- The slot at a cursor holds the first record that is left. -/
theorem slot (h : b.Stands c rs) {r : Record} (hr : rs.head? = some r) : b.slots[c.position]? = some r := by
  have hraw : b.raw[c.position]? = some r := by
    rw [← List.head?_drop, h.head, hr]
  rw [raw, List.getElem?_take] at hraw
  split at hraw
  · exact hraw
  · cases hraw

theorem get?_eq (h : b.Stands c rs) : b.get? c = rs.head?.map Record.event := by
  unfold get?
  cases rs with
  | nil => rw [if_pos (h.atEnd_iff.2 rfl)]; rfl
  | cons r rs =>
    rw [if_neg h.not_atEnd, h.slot rfl]
    rfl

/-- Moving on leaves all but the first record. -/
theorem next {r : Record} (h : b.Stands c (r :: rs)) : b.Stands (b.next c) rs := by
  have hlt : c.position < b.length := by
    have hne : ¬ c.position = b.length := by simpa [atEnd, Cursor.samePlace, finish] using h.not_atEnd
    have := h.position_le
    omega
  have hdrop : b.raw.drop c.position = r :: b.raw.drop (c.position + 1) := by
    have hraw : c.position < b.raw.length := by rwa [length_raw]
    have hhead := h.head
    rw [List.drop_eq_getElem_cons hraw] at hhead ⊢
    rw [List.head?_cons, List.head?_cons, Option.some.injEq] at hhead
    rw [hhead]
  have hshown : r.IsShown := by
    have hmem : r ∈ b.shownFrom c.position := by simp [h.left]
    simpa using (List.mem_filter.1 hmem).2
  have htail : b.shownFrom (c.position + 1) = rs := by
    have hleft := h.left
    rw [shownFrom, hdrop, List.filter_cons_of_pos (by simpa using hshown)] at hleft
    exact (List.cons.inj hleft).2
  rw [Buffer.next, h.stop, ← htail]
  exact stands_settle hlt

theorem walk_eq : ∀ (n : Nat) {c : Cursor} {rs : List Record}, b.Stands c rs →
    b.walk n c = (rs.take n).map Record.event
  | 0, _, _, _ => rfl
  | n + 1, c, [], h => by
    rw [walk, h.get?_eq]
    rfl
  | n + 1, c, r :: rs, h => by
    have ih := walk_eq n h.next
    rw [walk, h.get?_eq]
    show r.event :: b.walk n (b.next c) = _
    rw [ih]
    rfl

end Stands

variable (b)

theorem shownFrom_zero : b.shownFrom 0 = (b.slots.take b.length).filter (·.IsShown) := rfl

/-- Readers see every record that is shown. -/
theorem events_eq : b.events = (b.shownFrom 0).map Record.event := by
  have hlen : (b.shownFrom 0).length ≤ b.length := by
    have hfilter := List.length_filter_le (fun r : Record => decide r.IsShown) b.raw
    rwa [length_raw] at hfilter
  rw [events, b.stands_start.walk_eq, List.take_of_length_le hlen]

theorem count_eq : b.count = (b.shownFrom 0).length := by
  rw [count, events_eq, List.length_map]

theorem isEmpty_iff : b.isEmpty = true ↔ b.shownFrom 0 = [] := b.stands_start.atEnd_iff

theorem notified_iff : b.notified = true ↔ ∃ r ∈ b.raw, r.key = notifyKey := by
  simp [notified, Record.isNotify]

/-- Each committed record is either shown or of the wake-up channel. -/
theorem count_add_countP : b.count + b.raw.countP (·.key = notifyKey) = b.raw.length := by
  have hshown : b.count = b.raw.countP (fun r => ¬ decide (r.key = notifyKey) = true) := by
    rw [count_eq, shownFrom, List.drop_zero, List.countP_eq_length_filter]
    simp only [decide_eq_true_eq]
  rw [hshown, Nat.add_comm]
  exact (List.length_eq_countP_add_countP _).symm

variable {b} in
/-- What readers see depends on the committed records only. -/
theorem reads_congr {b' : Buffer} (h : b'.raw = b.raw) :
    b'.events = b.events ∧ b'.count = b.count ∧ b'.isEmpty = b.isEmpty ∧ b'.notified = b.notified := by
  have hleft : b'.shownFrom 0 = b.shownFrom 0 := congrArg (List.filter _) h
  have hempty : b'.isEmpty = true ↔ b.isEmpty = true := by rw [b'.isEmpty_iff, b.isEmpty_iff, hleft]
  refine ⟨?_, ?_, Bool.eq_iff_iff.2 hempty, congrArg (List.any · Record.isNotify) h⟩
  · rw [b'.events_eq, b.events_eq, hleft]
  · rw [b'.count_eq, b.count_eq, hleft]

/-- Moves a cursor on, several times. -/
def advance (b : Buffer) : Nat → Cursor → Cursor
  | 0, c => c
  | n + 1, c => b.advance n (b.next c)

variable {b}

/-- Moving on as often as there are records, or less often, leaves all but that many. -/
theorem Stands.advance : ∀ (n : Nat) {c : Cursor} {rs : List Record}, b.Stands c rs → n ≤ rs.length →
    b.Stands (b.advance n c) (rs.drop n)
  | 0, _, _, h, _ => h
  | n + 1, _, _ :: _, h, hn => advance n h.next (Nat.le_of_succ_le_succ hn)

/-- The records before a cursor that are shown are those that are not left. -/
theorem Stands.passed {n : Nat} (h : b.Stands c ((b.shownFrom 0).drop n)) :
    (b.slots.take c.position).filter (·.IsShown) = (b.shownFrom 0).take n := by
  have htake : b.slots.take c.position = b.raw.take c.position := by
    rw [raw, List.take_take, Nat.min_eq_left h.position_le]
  have hsplit : (b.raw.take c.position).filter (·.IsShown) ++ (b.shownFrom 0).drop n = b.shownFrom 0 := by
    rw [← h.left, shownFrom, ← List.filter_append, List.take_append_drop]
    rfl
  have hall := hsplit.trans (List.take_append_drop n _).symm
  rw [htake]
  exact List.append_cancel_right hall

end Buffer

/-! ## Histories -/

namespace Reading

/-- How many slots a step commits. -/
def Step.committed? : Step → Option Nat
  | edit (.commit n) => some (min n Buffer.capacity)
  | edit .clear => some 0
  | _ => none

/-- The record that a step stores in a slot. -/
def Step.stored? (i : Nat) : Step → Option Record
  | edit (.write j rs) => if j ≤ i then rs[i - j]? else none
  | _ => none

/-- The last of the values that some steps give, or else the one that there was before them. -/
def lastOf {α : Type} (f : Step → Option α) (before : α) (xs : List Step) : α :=
  (xs.filterMap f).getLast?.getD before

/-- How many slots are committed after some steps. -/
def lengthAfter (xs : List Step) : Nat := lastOf Step.committed? 0 xs

/-- What a slot holds after some steps. -/
def recordAfter (xs : List Step) (i : Nat) : Record := lastOf (Step.stored? i) Record.blank xs

theorem lastOf_cons {α : Type} (f : Step → Option α) (before : α) (x : Step) (xs : List Step) :
    lastOf f before (x :: xs) = lastOf f ((f x).getD before) xs := by
  unfold lastOf
  rw [List.filterMap_cons]
  cases f x with
  | none => rfl
  | some y => simp [List.getLast?_cons]

/-- What each step replaces by its value, or leaves alone, is the last value after a run. -/
theorem run_eq_lastOf {α : Type} (f : Step → Option α) (g : Reading → α)
    (h : ∀ s x, g (s.step x) = (f x).getD (g s)) (s : Reading) (xs : List Step) :
    g (s.run xs) = lastOf f (g s) xs := by
  induction xs generalizing s with
  | nil => rfl
  | cons x xs ih =>
    rw [lastOf_cons, ← h]
    exact ih (s.step x)

/-- Moves change nothing of a buffer. -/
theorem buffer_move (s : Reading) (m : Move) : (s.move m).2.buffer = s.buffer := by
  cases m <;> rfl

theorem buffer_moves (s : Reading) (ms : List Move) : (s.run (ms.map .move)).buffer = s.buffer := by
  induction ms generalizing s with
  | nil => rfl
  | cons m ms ih => exact (ih _).trans (s.buffer_move m)

theorem length_step (s : Reading) (x : Step) :
    (s.step x).buffer.length = x.committed?.getD s.buffer.length := by
  cases x with
  | edit e => cases e <;> rfl
  | move m => exact congrArg Buffer.length (s.buffer_move m)

theorem length_run (xs : List Step) : (run {} xs).buffer.length = lengthAfter xs :=
  run_eq_lastOf Step.committed? (fun s => s.buffer.length) length_step {} xs

theorem slot_step {i : Nat} (hi : i < Buffer.capacity) (s : Reading) (x : Step) :
    (s.step x).buffer.slots[i]?.getD Record.blank =
      (x.stored? i).getD (s.buffer.slots[i]?.getD Record.blank) := by
  cases x with
  | move m => exact congrArg (fun b : Buffer => b.slots[i]?.getD Record.blank) (s.buffer_move m)
  | edit e =>
    cases e with
    | commit n => rfl
    | clear => rfl
    | write j rs =>
      have hlen : i < s.buffer.slots.length := by rwa [s.buffer.length_slots]
      show (overwrite s.buffer.slots j rs)[i]?.getD _ = (if j ≤ i then rs[i - j]? else none).getD _
      rw [getElem?_overwrite]
      by_cases hj : j ≤ i
      · by_cases hrs : i - j < rs.length
        · simp [hj, hlen, hrs]
        · simp [hj, hrs]
      · simp [hj]

theorem slot_run {i : Nat} (hi : i < Buffer.capacity) (xs : List Step) :
    (run {} xs).buffer.slots[i]? = some (recordAfter xs i) := by
  have hrun := run_eq_lastOf (Step.stored? i) (fun s => s.buffer.slots[i]?.getD Record.blank) (slot_step hi) {} xs
  have hblank : Buffer.empty.slots[i]? = some Record.blank := by simp [Buffer.empty, hi]
  have hlen : i < (run {} xs).buffer.slots.length := by rwa [(run {} xs).buffer.length_slots]
  rw [List.getElem?_eq_getElem hlen] at hrun ⊢
  simp only [hblank, Option.getD_some] at hrun
  exact congrArg some hrun

/-! ## Iteration -/

theorem run_append (s : Reading) (xs ys : List Step) : s.run (xs ++ ys) = (s.run xs).run ys := List.foldl_append

/-- Whatever its answers are to be, a cursor that is moved on several times is moved as often. -/
theorem run_advances (s : Reading) {c : Buffer.Cursor} (hc : s.cursor = some c) (advances : List Advance) :
    s.run (advances.map fun a => .move (.advance a)) =
      { s with cursor := some (s.buffer.advance advances.length c) } := by
  induction advances generalizing s c with
  | nil =>
    obtain ⟨buffer, cursor⟩ := s
    cases hc
    rfl
  | cons a advances ih =>
    have hnext : s.step (.move (.advance a)) = { s with cursor := some (s.buffer.next c) } := by
      simp [step, move, hc]
    have hrun := ih { s with cursor := some (s.buffer.next c) } rfl
    show (s.step (.move (.advance a))).run _ = _
    rw [hnext]
    exact hrun

/-- A reader that begins anew leaves one record after the other behind it, from the first one on to the last, whatever it
did before. -/
theorem run_restart (s : Reading) (moves : List Move) (advances : List Advance)
    (hn : advances.length ≤ (s.buffer.shownFrom 0).length) :
    ∃ c, s.run (moves.map .move ++ .move .start :: advances.map fun a => .move (.advance a)) = ⟨s.buffer, some c⟩ ∧
      s.buffer.Stands c ((s.buffer.shownFrom 0).drop advances.length) := by
  let u := (s.run (moves.map .move)).step (.move .start)
  have hbuffer : (s.run (moves.map .move)).buffer = s.buffer := s.buffer_moves moves
  have hu : u = ⟨s.buffer, some s.buffer.start⟩ := by
    show Reading.mk _ (some (s.run (moves.map .move)).buffer.start) = _
    rw [hbuffer]
  refine ⟨s.buffer.advance advances.length s.buffer.start, ?_, s.buffer.stands_start.advance _ hn⟩
  rw [run_append]
  show u.run _ = _
  rw [hu]
  exact run_advances _ rfl advances

end Reading

/-- **Iteration.** Take any history of a buffer and its reader. As many slots are committed as was asked for last, as
far as there are any, and each slot holds what was stored in it last. Of the committed records, readers see the events
of those that are not of the wake-up channel, in order, and the channel's own are only noticed (`notified`). Nothing of
that depends on slots that are not committed.

However often a reader has moved its cursor before, it begins anew with the first event, and moves on to the next one
each time, or from the last one to the end, whether it keeps the cursor or a copy; the copy stays where the cursor
was. -/
theorem iteration_exact (history : List Reading.Step) :
    let b := (Reading.run {} history).buffer
    let committed := b.slots.take b.length
    let shown := committed.filter (·.key ≠ notifyKey)
    b.length = Reading.lengthAfter history ∧
    (∀ i < 1024, b.slots[i]? = some (Reading.recordAfter history i)) ∧
    b.events = shown.map Record.event ∧ b.count = shown.length ∧ (b.isEmpty = true ↔ shown = []) ∧
    (b.notified = true ↔ ∃ r ∈ committed, r.key = notifyKey) ∧
    b.count + committed.countP (·.key = notifyKey) = b.raw.length ∧
    (∀ b' : Buffer, b'.slots.take b'.length = committed →
      b'.events = b.events ∧ b'.count = b.count ∧ b'.isEmpty = b.isEmpty ∧ b'.notified = b.notified) ∧
    ∀ (moves : List Reading.Move) (advances : List Advance), advances.length ≤ shown.length →
      let n := advances.length
      let t := Reading.run {} (history ++ moves.map .move ++ .move .start :: advances.map fun a => .move (.advance a))
      t.buffer = b ∧ t.event? = (shown.map Record.event)[n]? ∧ (t.isDone = true ↔ n = shown.length) ∧
      ∃ c, t.cursor = some c ∧
        (b.slots.take c.position).filter (·.key ≠ notifyKey) = shown.take n ∧
        (∀ r, shown[n]? = some r → b.slots[c.position]? = some r) ∧
        (t.move (.advance .former)).1 = some c ∧
        (t.move (.advance .moved)).1 = (t.move (.advance .moved)).2.cursor := by
  intro b committed shown
  have hshown : b.shownFrom 0 = shown := b.shownFrom_zero
  have hcommitted : b.raw = committed := rfl
  refine ⟨Reading.length_run history, fun i hi => Reading.slot_run hi history, ?_, ?_, ?_, ?_, b.count_add_countP,
    fun b' hb' => Buffer.reads_congr hb', fun moves advances hn => ?_⟩
  · rw [b.events_eq, hshown]
  · rw [b.count_eq, hshown]
  · rw [b.isEmpty_iff, hshown]
  · rw [b.notified_iff, hcommitted]
  · intro n t
    rw [← hshown] at hn
    obtain ⟨c, hrun, hstands⟩ := (Reading.run {} history).run_restart moves advances hn
    have ht : t = ⟨b, some c⟩ := by
      show Reading.run {} _ = _
      rw [List.append_assoc, Reading.run_append]
      exact hrun
    rw [ht]
    refine ⟨rfl, ?_, ?_, c, rfl, ?_, fun r hr => ?_, rfl, rfl⟩
    · show b.get? c = _
      rw [hstands.get?_eq, hshown, List.head?_drop, List.getElem?_map]
    · show b.atEnd c = true ↔ _
      rw [hstands.atEnd_iff, List.drop_eq_nil_iff, ← hshown]
      exact ⟨fun hle => Nat.le_antisymm hn hle, fun heq => Nat.le_of_eq heq.symm⟩
    · rw [← hshown]
      exact hstands.passed
    · rw [← List.head?_drop, ← hshown] at hr
      exact hstands.slot hr

/-- A wake-up overwrites the first of two records and a third one comes behind them. A reader that moved on before
begins anew with the record that is left of the first two, and two moves take it to the end. -/
theorem iteration_exact_stale :
    let record (key : Key) : Record := .poll ⟨Mask.input, key⟩
    let history : List Reading.Step := [.edit (.write 0 [record 7, record 8]), .edit (.commit 2), .move .start,
      .edit .clear, .edit (.write 0 [record notifyKey]), .edit (.write 2 [record 9, record 10]), .edit (.commit 3)]
    let b := (Reading.run {} history).buffer
    let again := [.move (.advance .moved), .move .start, .move (.advance .former)]
    let through := [.move .start, .move (.advance .former), .move (.advance .moved)]
    b.events = [(record 8).event, (record 9).event] ∧ b.count + 1 = 3 ∧ b.notified = true ∧
      (Reading.run {} (history ++ again)).event? = some (record 9).event ∧
      (Reading.run {} (history ++ through)).isDone = true := by
  intro record history b again through
  obtain ⟨hlength, hslots, hevents, -, -, hnotified, hcount, -, hread⟩ := iteration_exact history
  have hlength : b.length = 3 := hlength
  have hcommitted : b.slots.take b.length = [record notifyKey, record 8, record 9] := by
    rw [hlength]
    refine List.ext_getElem? fun i => ?_
    match i with
    | 0 => exact hslots 0 (by decide)
    | 1 => exact hslots 1 (by decide)
    | 2 => exact hslots 2 (by decide)
    | i + 3 =>
      rw [List.getElem?_take, if_neg (by omega)]
      rfl
  rw [hcommitted] at hevents hnotified hcount hread
  refine ⟨hevents, ?_, hnotified.2 ⟨record notifyKey, by decide, rfl⟩, ?_, ?_⟩
  · rw [b.length_raw, hlength] at hcount
    exact hcount
  · exact (hread [.advance .moved] [.former] (by decide)).2.1
  · exact (hread [] [.former, .moved] (by decide)).2.2.1.2 rfl

end Vigil
