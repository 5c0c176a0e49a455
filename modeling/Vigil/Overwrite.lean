/-!
# Overwriting part of a list

`overwrite old i new` puts `new` in the place of what stands in `old` from position `i` on. The length stays: what
passes the end is dropped. `getElem?_overwrite` gives each element of the result.
-/

namespace Vigil

variable {α : Type}

/-- Overwrites part of a list, from a position on. -/
def overwrite : List α → Nat → List α → List α
  | [], _, _ => []
  | old, _, [] => old
  | _ :: old, 0, x :: new => x :: overwrite old 0 new
  | y :: old, i + 1, new => y :: overwrite old i new

@[simp] theorem length_overwrite (old : List α) (i : Nat) (new : List α) :
    (overwrite old i new).length = old.length := by
  fun_induction overwrite old i new <;> simp_all

/-- An element comes from the new list if it lies in the overwritten part, and is the old one otherwise. -/
theorem getElem?_overwrite (old : List α) (i : Nat) (new : List α) (j : Nat) :
    (overwrite old i new)[j]? =
      if i ≤ j ∧ j < old.length ∧ j - i < new.length then new[j - i]? else old[j]? := by
  fun_induction overwrite old i new generalizing j with
  | case1 => simp
  | case2 => simp
  | case3 y old x new ih =>
    cases j with
    | zero => simp
    | succ j => simpa using ih j
  | case4 y old i new _ ih =>
    cases j with
    | zero => simp
    | succ j => simpa [Nat.add_sub_add_right] using ih j

/-- The overwritten part is the new list, if that fits. -/
theorem take_drop_overwrite {old new : List α} {i : Nat} (h : i + new.length ≤ old.length) :
    ((overwrite old i new).drop i).take new.length = new := by
  refine List.ext_getElem? fun j => ?_
  simp only [List.getElem?_take, List.getElem?_drop, getElem?_overwrite]
  by_cases hj : j < new.length
  · rw [if_pos hj, if_pos (by omega), Nat.add_sub_cancel_left]
  · simp [hj]

/-- A part that lies before or behind the overwritten one stays. -/
theorem take_drop_overwrite_of_disjoint {old new : List α} {i k n : Nat} (h : k + n ≤ i ∨ i + new.length ≤ k) :
    ((overwrite old i new).drop k).take n = (old.drop k).take n := by
  refine List.ext_getElem? fun j => ?_
  simp only [List.getElem?_take, List.getElem?_drop, getElem?_overwrite]
  by_cases hj : j < n
  · rw [if_pos hj, if_pos hj, if_neg (by omega)]
  · simp [hj]

end Vigil
