/-!
# Scripts

A `Script` lists answers to come, each for one service. `Script.next?` takes the first answer for a service out of it,
which makes it shorter by one (`length_next?`) and leaves the order of the others.
-/

namespace Vigil

/-- Answers to come, each for one service. -/
abbrev Script (σ ε : Type) := List (σ × ε)

namespace Script

variable {σ ε : Type} [DecidableEq σ]

/-- Takes the next answer for a service out of a script. -/
def next? (s : σ) : Script σ ε → Option (ε × Script σ ε)
  | [] => none
  | (t, e) :: rest =>
    if t = s then some (e, rest)
    else (next? s rest).map fun found => (found.1, (t, e) :: found.2)

theorem length_next? {s : σ} {script rest : Script σ ε} {e : ε} (h : next? s script = some (e, rest)) :
    script.length = rest.length + 1 := by
  induction script generalizing rest with
  | nil => simp [next?] at h
  | cons x script ih =>
    obtain ⟨t, y⟩ := x
    unfold next? at h
    split at h
    · simp_all
    · obtain ⟨⟨y', rest'⟩, hf, hr⟩ := Option.map_eq_some_iff.1 h
      simp only [Prod.mk.injEq] at hr
      obtain ⟨rfl, rfl⟩ := hr
      simp [ih hf]

end Script

end Vigil
