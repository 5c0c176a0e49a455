import Mathlib.Data.Rat.Floor
import Mathlib.Order.Bounds.Basic
import Vigil.Duration

/-!
# Rounding of durations

A waiting call is given a duration in whole seconds and the nanoseconds beyond them, which say it exactly
(`Timespec.states_ofNanos`), or in milliseconds.

- The milliseconds are the fewest that cover the duration (`isLeast_covering`, `millisUp_eq`), cut at the largest number
  that the call takes; they keep the order of durations (`millisUp_mono`).
- They are less than one millisecond too many (`millisUp_lt`), and too few only for durations that are cut
  (`le_millisUp`).
- A machine gets the same result in words of 64 bits (`Word.exists_millis?`), as long as the sum that it takes on the
  way fits into one (`Word.isSome_add?_milli`).
-/

namespace Vigil

/-! ## Seconds and nanoseconds -/

/-- Seconds and nanoseconds, in their one proper form, of a duration. -/
def Timespec.States (t : Timespec) (r : Int) : Prop :=
  t.seconds * 1000000000 + t.nanos = r ∧ 0 ≤ t.nanos ∧ t.nanos < 1000000000

theorem Timespec.states_ofNanos_max (d : Int) : (Timespec.ofNanos d).States (max d 0) := by
  unfold Timespec.States Timespec.ofNanos nanosPerSecond
  simp only
  omega

theorem Timespec.states_ofNanos {r : Int} (h : 0 ≤ r) : (Timespec.ofNanos r).States r := by
  have hr := states_ofNanos_max r
  rwa [max_eq_left h] at hr

/-! ## Milliseconds -/

/-- The longest duration that a waiting call takes in milliseconds. -/
def longest : Int := maxMillis * nanosPerMilli

theorem millisUp_of_nonpos {d : Int} (h : d ≤ 0) : millisUp d = 0 := if_pos h

theorem millisUp_of_pos {d : Int} (h : 0 < d) :
    millisUp d = min ((d + nanosPerMilli - 1) / nanosPerMilli) maxMillis := if_neg (Int.not_le.2 h)

/-- The quotient is the least number of milliseconds that are not shorter than the duration. -/
theorem isLeast_covering (d : Int) :
    IsLeast {m : Int | d ≤ m * nanosPerMilli} ((d + nanosPerMilli - 1) / nanosPerMilli) := by
  constructor
  · show d ≤ (d + nanosPerMilli - 1) / nanosPerMilli * nanosPerMilli
    unfold nanosPerMilli
    omega
  · intro m hm
    have hm : d ≤ m * nanosPerMilli := hm
    unfold nanosPerMilli at hm ⊢
    omega

theorem millisUp_eq {r : Int} (h : 0 ≤ r) : millisUp r = min ⌈(r : ℚ) / 1000000⌉ 2147483647 := by
  have hc : ⌈(r : ℚ) / 1000000⌉ = -(-r / 1000000) := by exact_mod_cast Rat.ceil_intCast_div_natCast r 1000000
  rw [hc]
  unfold millisUp maxMillis nanosPerMilli
  split <;> omega

theorem millisUp_nonneg (d : Int) : 0 ≤ millisUp d := by
  unfold millisUp maxMillis nanosPerMilli
  split <;> omega

theorem millisUp_le_maxMillis (d : Int) : millisUp d ≤ maxMillis := by
  unfold millisUp
  split
  · decide
  · exact Int.min_le_right _ _

theorem millisUp_pos_iff {d : Int} : 0 < millisUp d ↔ 0 < d := by
  unfold millisUp maxMillis nanosPerMilli
  split <;> omega

theorem millisUp_mono {d e : Int} (h : d ≤ e) : millisUp d ≤ millisUp e := by
  by_cases hd : d ≤ 0
  · rw [millisUp_of_nonpos hd]
    exact millisUp_nonneg e
  · have hpos : 0 < d := Int.not_le.1 hd
    have hquotient : (d + nanosPerMilli - 1) / nanosPerMilli ≤ (e + nanosPerMilli - 1) / nanosPerMilli :=
      Int.ediv_le_ediv (by decide) (by omega)
    rw [millisUp_of_pos hpos, millisUp_of_pos (Int.lt_of_lt_of_le hpos h)]
    omega

/-- Rounding up gives no less than the duration, as far as there are milliseconds for it. -/
theorem le_millisUp (d : Int) : min d longest ≤ millisUp d * nanosPerMilli := by
  unfold longest millisUp maxMillis nanosPerMilli
  split <;> omega

theorem le_millisUp_of_le_longest {d : Int} (h : d ≤ longest) : max d 0 ≤ millisUp d * nanosPerMilli := by
  have hcovers := le_millisUp d
  rw [Int.min_eq_left h] at hcovers
  exact Int.max_le.2 ⟨hcovers, Int.mul_nonneg (millisUp_nonneg d) (by decide)⟩

/-- Rounding up adds less than a millisecond. -/
theorem millisUp_lt (d : Int) : millisUp d * nanosPerMilli < max d 0 + nanosPerMilli := by
  unfold millisUp maxMillis nanosPerMilli
  split <;> omega

/-! ## Machine words -/

namespace Word

/-- The word for a number, unless the number goes beyond 64 bits. -/
def ofInt? (n : Int) : Option Int64 := if -2 ^ 63 ≤ n ∧ n < 2 ^ 63 then some (Int64.ofInt n) else none

/-- The sum, unless it overflows. -/
def add? (a b : Int64) : Option Int64 := ofInt? (a.toInt + b.toInt)

/-- The difference, unless it overflows. -/
def sub? (a b : Int64) : Option Int64 := ofInt? (a.toInt - b.toInt)

/-- Nanoseconds in a second. -/
def second : Int64 := Int64.ofInt nanosPerSecond

/-- Nanoseconds in a millisecond. -/
def milli : Int64 := Int64.ofInt nanosPerMilli

/-- What is divided by a millisecond to round a duration up, if none of the steps to it overflows. -/
def dividend? (d : Int64) : Option Int64 := do
  let sum ← add? d milli
  sub? sum 1

/-- A number of milliseconds in 32 bits, up to the largest. -/
def cut (m : Int64) : Int32 := if Int64.ofInt maxMillis < m then Int32.ofInt maxMillis else m.toInt32

/-- Milliseconds as a machine rounds them up: in 64 bits as far as the quotient, and in 32 from there. -/
def millis? (d : Int64) : Option Int32 :=
  if d ≤ 0 then some 0 else (dividend? d).map fun n => cut (n / milli)

/-- A negative duration counts as none. -/
def clamp (d : Int64) : Int64 := if d < 0 then 0 else d

/-- Seconds and nanoseconds as a machine divides them. -/
def timespec (d : Int64) : Int64 × Int64 := (clamp d / second, clamp d % second)

theorem ofInt?_eq_some_iff {n : Int} {w : Int64} : ofInt? n = some w ↔ w.toInt = n := by
  unfold ofInt?
  constructor
  · intro h
    split at h
    · rename_i hn
      rw [← Option.some.inj h]
      exact Int64.toInt_ofInt_of_le hn.1 hn.2
    · cases h
  · rintro rfl
    rw [if_pos ⟨Int64.le_toInt w, Int64.toInt_lt w⟩, Int64.ofInt_toInt]

theorem toInt_second : second.toInt = nanosPerSecond := by decide

theorem toInt_milli : milli.toInt = nanosPerMilli := by decide

theorem exists_ofInt? {n : Int} (hge : -2 ^ 63 ≤ n) (hlt : n < 2 ^ 63) : ∃ w, ofInt? n = some w ∧ w.toInt = n :=
  ⟨Int64.ofInt n, if_pos ⟨hge, hlt⟩, Int64.toInt_ofInt_of_le hge hlt⟩

/-- The first step to the dividend overflows just from a millisecond below the end of 64 bits on. -/
theorem isSome_add?_milli {d : Int64} (hpos : 0 < d.toInt) :
    (add? d milli).isSome = true ↔ d.toInt < 2 ^ 63 - 10 ^ 6 := by
  constructor
  · intro h
    obtain ⟨s, hs⟩ := Option.isSome_iff_exists.1 h
    have hsum : s.toInt = d.toInt + milli.toInt := ofInt?_eq_some_iff.1 hs
    have hlt := Int64.toInt_lt s
    rw [toInt_milli, nanosPerMilli] at hsum
    omega
  · intro h
    have hmilli : milli.toInt = 1000000 := toInt_milli
    obtain ⟨s, hs, -⟩ := exists_ofInt? (n := d.toInt + milli.toInt) (by omega) (by omega)
    exact Option.isSome_iff_exists.2 ⟨s, hs⟩

/-- Short of that, none of the steps overflows. -/
theorem exists_dividend? {d : Int64} (hpos : 0 < d.toInt) (h : d.toInt < 2 ^ 63 - 10 ^ 6) :
    ∃ s n, add? d milli = some s ∧ dividend? d = some n ∧ s.toInt = d.toInt + nanosPerMilli ∧
      n.toInt = d.toInt + nanosPerMilli - 1 := by
  obtain ⟨s, hs⟩ := Option.isSome_iff_exists.1 ((isSome_add?_milli hpos).2 h)
  have hsum : s.toInt = d.toInt + nanosPerMilli := by
    rw [← toInt_milli]
    exact ofInt?_eq_some_iff.1 hs
  have hone : (1 : Int64).toInt = 1 := by decide
  obtain ⟨n, hn, hdifference⟩ := exists_ofInt? (n := s.toInt - (1 : Int64).toInt)
    (by rw [hone, hsum, nanosPerMilli]; omega) (by rw [hone, hsum, nanosPerMilli]; omega)
  refine ⟨s, n, hs, ?_, hsum, ?_⟩
  · rw [dividend?, hs]
    exact hn
  · rw [hdifference, hone, hsum]

theorem toInt_quotient {n : Int64} (h : 0 ≤ n.toInt) : (n / milli).toInt = n.toInt / nanosPerMilli := by
  have hmilli : milli ≠ -1 := by decide
  rw [Int64.toInt_div_of_ne_right _ _ hmilli, toInt_milli, Int.tdiv_eq_ediv_of_nonneg h]

theorem toInt_cut {m : Int64} (h : 0 ≤ m.toInt) : (cut m).toInt = min m.toInt maxMillis := by
  unfold cut
  by_cases hcut : Int64.ofInt maxMillis < m
  · have hge : maxMillis ≤ m.toInt := Int.le_of_lt (Int64.lt_iff_toInt_lt.1 hcut)
    rw [if_pos hcut, Int.min_eq_right hge]
    rfl
  · have hle : m.toInt ≤ maxMillis := Int64.le_iff_toInt_le.1 (Int64.not_lt.1 hcut)
    rw [if_neg hcut, Int.min_eq_left hle, Int64.toInt_toInt32]
    unfold maxMillis at hle
    exact Int.bmod_eq_of_le (by omega) (by omega)

/-- Rounding up in machine words is rounding up. -/
theorem exists_millis? {d : Int64} (h : d.toInt < 2 ^ 63 - 10 ^ 6) :
    ∃ m, millis? d = some m ∧ m.toInt = millisUp d.toInt := by
  unfold millis?
  by_cases hnonpos : d ≤ 0
  · rw [if_pos hnonpos, millisUp_of_nonpos (Int64.le_iff_toInt_le.1 hnonpos)]
    exact ⟨0, rfl, rfl⟩
  · have hpos : 0 < d.toInt := Int64.lt_iff_toInt_lt.1 (Int64.not_le.1 hnonpos)
    obtain ⟨-, n, -, hn, -, hdividend⟩ := exists_dividend? hpos h
    have hnonneg : 0 ≤ n.toInt := by
      rw [hdividend, nanosPerMilli]
      omega
    have hquotient := toInt_quotient hnonneg
    have hquotient_nonneg : 0 ≤ (n / milli).toInt := by
      rw [hquotient]
      exact Int.ediv_nonneg hnonneg (by decide)
    rw [if_neg hnonpos, hn]
    refine ⟨cut (n / milli), rfl, ?_⟩
    rw [toInt_cut hquotient_nonneg, hquotient, hdividend, millisUp_of_pos hpos]

theorem toInt_clamp (d : Int64) : (clamp d).toInt = max d.toInt 0 := by
  unfold clamp
  by_cases h : d < 0
  · have hle : d.toInt ≤ 0 := Int.le_of_lt (Int64.lt_iff_toInt_lt.1 h)
    rw [if_pos h, Int.max_eq_right hle]
    rfl
  · have hge : 0 ≤ d.toInt := Int64.le_iff_toInt_le.1 (Int64.not_lt.1 h)
    rw [if_neg h, Int.max_eq_left hge]

theorem toInt_timespec (d : Int64) :
    (timespec d).1.toInt = (Timespec.ofNanos d.toInt).seconds ∧
      (timespec d).2.toInt = (Timespec.ofNanos d.toInt).nanos := by
  have hsecond : second ≠ -1 := by decide
  have hnonneg : 0 ≤ max d.toInt 0 := Int.le_max_right _ _
  constructor
  · show (clamp d / second).toInt = max d.toInt 0 / nanosPerSecond
    rw [Int64.toInt_div_of_ne_right _ _ hsecond, toInt_clamp, toInt_second, Int.tdiv_eq_ediv_of_nonneg hnonneg]
  · show (clamp d % second).toInt = max d.toInt 0 % nanosPerSecond
    rw [Int64.toInt_mod, toInt_clamp, toInt_second, Int.tmod_eq_emod_of_nonneg hnonneg]

end Word

/-! ## Rounding up -/

/-- What milliseconds, and seconds and nanoseconds, make of a duration of 64 bits. -/
structure Rounded (d : Int64) : Prop where
  nonpos : d.toInt ≤ 0 → millisUp d.toInt = 0
  /-- The milliseconds are the fewest that cover the duration, cut at the largest number of 32 bits. -/
  least : 0 < d.toInt → ∃ m, IsLeast {m : Int | d.toInt ≤ m * 10 ^ 6} m ∧ millisUp d.toInt = min m (2 ^ 31 - 1)
  /-- No step of a machine overflows: it holds the sum, what is left to divide, and the quotient as they are. -/
  exact : 0 < d.toInt → ∃ s n, Word.add? d Word.milli = some s ∧ Word.dividend? d = some n ∧
    s.toInt = d.toInt + 10 ^ 6 ∧ n.toInt = d.toInt + 10 ^ 6 - 1 ∧
    (n / Word.milli).toInt = (d.toInt + 10 ^ 6 - 1) / 10 ^ 6
  fits : 0 ≤ millisUp d.toInt ∧ millisUp d.toInt ≤ 2 ^ 31 - 1
  millis : ∃ m, Word.millis? d = some m ∧ m.toInt = millisUp d.toInt
  pos_iff : 0 < millisUp d.toInt ↔ 0 < d.toInt
  mono : ∀ e ≤ d, millisUp e.toInt ≤ millisUp d.toInt
  states : (Timespec.ofNanos d.toInt).States (max d.toInt 0)
  timespec : (Word.timespec d).1.toInt = (Timespec.ofNanos d.toInt).seconds ∧
    (Word.timespec d).2.toInt = (Timespec.ofNanos d.toInt).nanos
  /-- If they are not cut, then the milliseconds exceed the seconds and nanoseconds by less than one. -/
  close : d.toInt ≤ (2 ^ 31 - 1) * 10 ^ 6 →
    let t := Timespec.ofNanos d.toInt
    t.seconds * 10 ^ 9 + t.nanos ≤ millisUp d.toInt * 10 ^ 6 ∧
      millisUp d.toInt * 10 ^ 6 < t.seconds * 10 ^ 9 + t.nanos + 10 ^ 6

/-- **Rounding up.** A duration that is more than a millisecond below the end of 64 bits becomes the fewest milliseconds
that cover it, as far as the waiting call takes so many. Machine words give these milliseconds, and the seconds and
nanoseconds, as they are and without an overflow; the sign of the duration and its place among the others are kept. -/
theorem rounding_tight {d : Int64} (h : d.toInt < 2 ^ 63 - 10 ^ 6) : Rounded d where
  nonpos := millisUp_of_nonpos
  least hpos := ⟨_, isLeast_covering d.toInt, millisUp_of_pos hpos⟩
  exact hpos := by
    obtain ⟨s, n, hs, hn, hsum, hdividend⟩ := Word.exists_dividend? hpos h
    refine ⟨s, n, hs, hn, hsum, hdividend, ?_⟩
    rw [Word.toInt_quotient (by rw [hdividend, nanosPerMilli]; omega), hdividend]
    rfl
  fits := ⟨millisUp_nonneg _, millisUp_le_maxMillis _⟩
  millis := Word.exists_millis? h
  pos_iff := millisUp_pos_iff
  mono _ he := millisUp_mono (Int64.le_iff_toInt_le.1 he)
  states := Timespec.states_ofNanos_max _
  timespec := Word.toInt_timespec d
  close hle := by
    intro t
    have hstates : t.seconds * 10 ^ 9 + t.nanos = max d.toInt 0 := (Timespec.states_ofNanos_max d.toInt).1
    rw [hstates]
    exact ⟨le_millisUp_of_le_longest hle, millisUp_lt d.toInt⟩

/-- One nanosecond more than all but one of the milliseconds that a waiting call takes, and the longest duration whose
sum with a millisecond a machine holds. -/
theorem rounding_tight_last :
    let d : Int64 := 2147483646000001
    let e : Int64 := 9223372036853775807
    d.toInt < 2 ^ 63 - 10 ^ 6 ∧ Rounded d ∧ millisUp d.toInt = 2147483647 ∧
      Timespec.ofNanos d.toInt = ⟨2147483, 646000001⟩ ∧
      e.toInt < 2 ^ 63 - 10 ^ 6 ∧ Rounded e ∧ Word.millis? e = some 2147483647 := by
  intro d e
  have hd : d.toInt < 2 ^ 63 - 10 ^ 6 := by decide
  have he : e.toInt < 2 ^ 63 - 10 ^ 6 := by decide
  exact ⟨hd, rounding_tight hd, by decide, by decide, he, rounding_tight he, by decide⟩

/-- A duration that is a millisecond below the end of 64 bits is too long: the sum with a millisecond overflows, although
what is left to divide would have its place. -/
theorem rounding_overflows :
    let d : Int64 := 9223372036853775808
    d.toInt = 2 ^ 63 - 10 ^ 6 ∧ Word.add? d Word.milli = none ∧ Word.millis? d = none ∧
      (Word.ofInt? (d.toInt + Word.milli.toInt - 1)).isSome = true := by
  decide

end Vigil
