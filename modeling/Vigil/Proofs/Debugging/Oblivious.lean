import Vigil.Session

/-!
# Programs that do not look back

A program may not look at what was called and told before it: neither at the trace, nor at the log, nor at the number of
the last error, unless a call of its own has just left it there.

- `Deed`: what happens to a process, and `Course`: what a program does to a world. `World.after` is what the course
  makes of any world with the kernel it was taken from. The settings of the log decide there what is written, and the
  lines what becomes of the last error;
- `Oblivious`: the result of a program and its course follow from the state of the kernel. So two worlds with one kernel
  get the same of it (`Oblivious.agree`);
- whatever is put together from calls, notes, the clock and the patience is oblivious (`Built.oblivious`). A program
  that tells something first and reads the number of its error behind it is not (`not_oblivious_noted_errno`);
- `Oblivious.observe_apply`: what there is to see of an oblivious program. The log is what the settings make of its
  notes (`Logging.render`).
-/

namespace Vigil

variable {K : Kernel} {α β : Type}

/-! ## Deeds -/

/-- What happens to a process. -/
inductive Deed where
  /-- It has something to tell. -/
  | told (n : Note)
  /-- It takes down the number of an error, if there is one. -/
  | called (code : Option Code)

/-- What is told, in order. -/
def notesOf (ds : List Deed) : List Note :=
  ds.filterMap fun d =>
    match d with
    | .told n => some n
    | .called _ => none

namespace Process

/-- Lets one thing happen. -/
def undergo (p : Process) : Deed → Process
  | .told n => p.noted n
  | .called code => p.failed code

/-- Lets several things happen, in order. -/
def after (p : Process) (ds : List Deed) : Process := ds.foldl undergo p

theorem after_append (p : Process) (ds es : List Deed) : p.after (ds ++ es) = (p.after ds).after es :=
  List.foldl_append

@[simp] theorem logging_undergo (p : Process) (d : Deed) : (p.undergo d).logging = p.logging := by
  cases d with
  | told n =>
    show (p.noted n).logging = _
    unfold noted
    split <;> rfl
  | called code => cases code <;> rfl

@[simp] theorem logging_after (p : Process) (ds : List Deed) : (p.after ds).logging = p.logging := by
  induction ds generalizing p with
  | nil => rfl
  | cons d ds ih => exact (ih _).trans (p.logging_undergo d)

end Process

namespace Logging

/-- The lines that some notes add to a log. -/
def lines (l : Logging) (notes : List Note) : List String :=
  if l.enabled then notes.map fun n => l.line (n.text ++ "\n") else []

/-- The text that some notes add to a log. -/
def render (l : Logging) (notes : List Note) : String := String.join (l.lines notes)

theorem lines_append (l : Logging) (ns ms : List Note) : l.lines (ns ++ ms) = l.lines ns ++ l.lines ms := by
  unfold lines
  split
  · exact List.map_append
  · rfl

theorem lines_nil (l : Logging) : l.lines [] = [] := by
  unfold lines
  split <;> rfl

/-- Nothing is written when debugging is off. -/
theorem render_of_disabled {l : Logging} (h : l.enabled = false) (notes : List Note) : l.render notes = "" := by
  rw [render, lines, h]
  rfl

end Logging

namespace Process

theorem lines_undergo (p : Process) (d : Deed) : (p.undergo d).lines = p.lines ++ p.logging.lines (notesOf [d]) := by
  cases d with
  | told n =>
    show (p.noted n).lines = _
    unfold noted Logging.lines
    split
    · rfl
    · exact (List.append_nil _).symm
  | called code =>
    show (p.failed code).lines = p.lines ++ p.logging.lines []
    rw [Logging.lines_nil, List.append_nil]
    cases code <;> rfl

/-- A process adds the lines of what it tells to its log, and no others. -/
theorem lines_after (p : Process) (ds : List Deed) :
    (p.after ds).lines = p.lines ++ p.logging.lines (notesOf ds) := by
  induction ds generalizing p with
  | nil =>
    show p.lines = p.lines ++ p.logging.lines []
    rw [Logging.lines_nil, List.append_nil]
  | cons d ds ih =>
    have hnotes : notesOf (d :: ds) = notesOf [d] ++ notesOf ds := List.filterMap_append (l := [d])
    have htail := ih (p.undergo d)
    rwa [logging_undergo, lines_undergo, List.append_assoc, ← Logging.lines_append, ← hnotes] at htail

end Process

/-! ## Courses -/

/-- What a program does to a world: the kernel that it leaves, its exchanges with it, and what happens to the
process. -/
structure Course (K : Kernel) where
  kernel : K.State
  exchanges : List Exchange := []
  deeds : List Deed := []

/-- One course, and then another one. -/
def Course.append (c d : Course K) : Course K := ⟨d.kernel, c.exchanges ++ d.exchanges, c.deeds ++ d.deeds⟩

/-- What a course makes of a world. -/
def World.after (w : World K) (c : Course K) : World K :=
  ⟨c.kernel, w.trace ++ c.exchanges, w.process.after c.deeds⟩

theorem World.after_append (w : World K) (c d : Course K) : w.after (c.append d) = (w.after c).after d := by
  simp only [after, Course.append, Process.after_append, List.append_assoc]

theorem World.after_nil (w : World K) : w.after { kernel := w.kernel } = w := by
  simp only [after, List.append_nil]
  rfl

/-! ## Oblivious programs -/

/-- The result and the course of a program follow from the state of the kernel. -/
def Oblivious (m : Sys K α) : Prop :=
  ∀ s : K.State, ∃ (a : α) (c : Course K), ∀ w : World K, w.kernel = s → m w = (a, w.after c)

namespace Oblivious

/-- Two worlds whose kernels are in one state get the same result and the same course. -/
theorem agree {m : Sys K α} (h : Oblivious m) {w₁ w₂ : World K} (hk : w₁.kernel = w₂.kernel) :
    ∃ a c, m w₁ = (a, w₁.after c) ∧ m w₂ = (a, w₂.after c) := by
  obtain ⟨a, c, hm⟩ := h w₁.kernel
  exact ⟨a, c, hm w₁ rfl, hm w₂ hk.symm⟩

theorem pure (a : α) : Oblivious (K := K) (Pure.pure a) := fun s =>
  ⟨a, { kernel := s }, fun w h => Prod.ext rfl (h ▸ w.after_nil.symm)⟩

theorem bind {m : Sys K α} {f : α → Sys K β} (hm : Oblivious m) (hf : ∀ a, Oblivious (f a)) :
    Oblivious (m >>= f) := by
  intro s
  obtain ⟨a, c, hm⟩ := hm s
  obtain ⟨b, d, hf⟩ := hf a c.kernel
  refine ⟨b, c.append d, fun w h => ?_⟩
  rw [Sys.bind_apply, hm w h, hf (w.after c) rfl, World.after_append]

/-- What there is to see of a program: its result, its exchanges, and what it tells as far as it is written. -/
theorem observe_apply {m : Sys K α} (h : Oblivious m) (s : K.State) : ∃ (a : α) (c : Course K), ∀ w : World K,
    w.kernel = s → observe m w = (⟨a, c.exchanges, w.process.logging.render (notesOf c.deeds)⟩, w.after c) := by
  obtain ⟨a, c, hm⟩ := h s
  refine ⟨a, c, fun w hw => ?_⟩
  simp only [observe, hm w hw, World.after, Process.lines_after, List.drop_left, Logging.render]

end Oblivious

/-- A program that is put together from calls, notes, the clock and the patience does not look back. -/
theorem Built.oblivious {P : Call → Prop} {m : Sys K α} (h : Built P m) : Oblivious m := by
  induction h with
  | pure a => exact .pure a
  | now => exact fun s => ⟨K.clock s, { kernel := s }, fun w h => Prod.ext (h ▸ rfl) (h ▸ w.after_nil.symm)⟩
  | patience => exact fun s => ⟨K.patience s, { kernel := s }, fun w h => Prod.ext (h ▸ rfl) (h ▸ w.after_nil.symm)⟩
  | note n =>
    refine fun s => ⟨(), { kernel := s, deeds := [.told n] }, fun w h => ?_⟩
    subst h
    simp only [Vigil.note, World.after, List.append_nil]
    rfl
  | @call c _ =>
    let r (s : K.State) := K.answer s c
    refine fun s => ⟨(r s).1, ⟨(r s).2, [⟨c, (r s).1, K.clock (r s).2⟩], [.called (c.errorLeft (r s).1)]⟩, ?_⟩
    intro w h
    subst h
    rfl
  | bind _ _ ihm ihf => exact .bind ihm ihf

/-- The number of an error does not outlast a note. -/
theorem not_oblivious_noted_errno (s : K.State) (n : Note) : ¬ Oblivious (K := K) (do note n; errno) := by
  intro h
  let w (code : Code) : World K :=
    { kernel := s, process := { logging := { enabled := true }, disturb := fun _ _ => code } }
  obtain ⟨a, c, h₁, h₂⟩ := @Oblivious.agree K Code _ h (w 0) (w 1) rfl
  have hzero : (0 : Code) = a := congrArg Prod.fst h₁
  have hone : (1 : Code) = a := congrArg Prod.fst h₂
  exact absurd (hzero.trans hone.symm) (by decide)

end Vigil
