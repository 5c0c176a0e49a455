/-!
# Tables

A `Table` maps keys to values. It is read through `get?`, and every change says what it does to that view:
`get?_insert` and `get?_erase`.
-/

namespace Vigil

/-- A map with finitely many keys; of two entries under one key, the first counts. -/
structure Table (κ ν : Type) where
  entries : List (κ × ν) := []
  deriving DecidableEq

namespace Table

variable {κ ν : Type}

/-- No entry. -/
def empty : Table κ ν := ⟨[]⟩

variable [DecidableEq κ]

/-- The value under a key. -/
def get? (t : Table κ ν) (k : κ) : Option ν := (t.entries.find? (·.1 == k)).map (·.2)

/-- Drops what is under a key. -/
def erase (t : Table κ ν) (k : κ) : Table κ ν := ⟨t.entries.filter (·.1 != k)⟩

/-- Puts a value under a key, in place of the one that was there. -/
def insert (t : Table κ ν) (k : κ) (v : ν) : Table κ ν := ⟨(k, v) :: (t.erase k).entries⟩

@[simp] theorem get?_empty (k : κ) : (empty : Table κ ν).get? k = none := rfl

theorem get?_erase (t : Table κ ν) (k j : κ) : (t.erase k).get? j = if j = k then none else t.get? j := by
  unfold get? erase
  rw [List.find?_filter]
  by_cases h : j = k
  · subst h
    simp [List.find?_eq_none]
  · have : (fun x : κ × ν => x.1 != k && x.1 == j) = (·.1 == j) := by
      funext x
      by_cases hx : x.1 = j <;> simp [hx, h]
    simp only [Bool.decide_and, Bool.decide_eq_true, this, h, if_false]

/-- There is nothing to drop under a key without a value. -/
theorem erase_of_get?_eq_none {t : Table κ ν} {k : κ} (h : t.get? k = none) : t.erase k = t := by
  have hne : ∀ x ∈ t.entries, x.1 ≠ k := by simpa [get?, List.find?_eq_none] using h
  have : t.entries.filter (·.1 != k) = t.entries := List.filter_eq_self.2 fun x hx => by simpa using hne x hx
  simp only [erase, this]

/-- What is dropped before a key gets its value makes no difference. -/
theorem insert_erase (t : Table κ ν) (k : κ) (v : ν) : (t.erase k).insert k v = t.insert k v := by
  simp [insert, erase, List.filter_filter]

theorem get?_insert (t : Table κ ν) (k j : κ) (v : ν) :
    (t.insert k v).get? j = if j = k then some v else t.get? j := by
  by_cases h : j = k
  · subst h
    simp [insert, get?]
  · have hk : k ≠ j := fun e => h e.symm
    have := get?_erase t k j
    simp only [get?, h, if_false] at this
    simp [insert, get?, hk, h, this]

end Table

end Vigil
