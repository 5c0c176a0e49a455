import Mathlib.Data.List.Nodup
import Vigil.Proofs.Debugging.Backends
import Vigil.Proofs.Debugging.Oblivious
import Vigil.Proofs.Lifetime.Backends
import Vigil.Replay

/-!
# The order of selection

Which backends a selection tries, and which one it creates.

- `Build.preferring`: the kinds of a build, those of a preferred name first;
- `Backend.Tried`: one world comes after another by attempts, one after the other. Each of them makes one call that
  founds a backend, which is of its kind (`Backend.shows_attempt_founded`);
- `Chosen`: the attempts follow an order up to the first that succeeds, or to its end;
- `selection_ordered`: a selection follows the order of preference. A preferred name that no backend has does not
  matter.
-/

namespace Vigil

variable {K : Kernel}

/-! ## Preference -/

theorem Kind.name_injective : Function.Injective Kind.name := by
  intro k k' h
  cases k <;> cases k' <;> first | rfl | exact absurd h (by decide)

namespace Build

/-- The kinds of a build, those of a preferred name first, and the others in the order of the build. -/
def preferring (b : Build) (preferred : String) : List Kind :=
  b.kinds.filter (·.name = preferred) ++ b.kinds.filter (·.name ≠ preferred)

variable (b : Build) (preferred : String)

theorem nodup_kinds : b.kinds.Nodup := List.Nodup.filter _ (by decide)

theorem preferring_perm : (b.preferring preferred).Perm b.kinds := by
  have h := List.filter_append_perm (fun k : Kind => decide (k.name = preferred)) b.kinds
  simpa [preferring] using h

theorem nodup_preferring : (b.preferring preferred).Nodup := (b.preferring_perm preferred).nodup_iff.2 b.nodup_kinds

variable {b} {preferred}

/-- Only one kind has the preferred name, if it is found. -/
theorem filter_name_of_some {k : Kind} (h : b.find? preferred = some k) :
    b.kinds.filter (·.name = preferred) = [k] := by
  have hname : k.name = preferred := by simpa using List.find?_some h
  have hmem : k ∈ b.kinds := List.mem_of_find?_eq_some h
  have hsame : ∀ k' : Kind, decide (k'.name = preferred) = (k' == k) := by
    intro k'
    rw [← hname, Bool.eq_iff_iff, decide_eq_true_iff, beq_iff_eq]
    exact Kind.name_injective.eq_iff
  simp only [hsame]
  rw [List.filter_beq, List.count_eq_one_of_mem b.nodup_kinds hmem]
  rfl

theorem filter_name_of_none (h : b.find? preferred = none) : b.kinds.filter (·.name = preferred) = [] := by
  simpa [find?] using h

theorem preferring_of_absent (h : ∀ k ∈ b.kinds, k.name ≠ preferred) : b.preferring preferred = b.kinds := by
  have hnone : b.kinds.filter (·.name = preferred) = [] := by simpa using h
  have hall : b.kinds.filter (·.name ≠ preferred) = b.kinds := by simpa using h
  rw [preferring, hnone, hall]
  rfl

/-- No backend has an empty name. -/
theorem absent_empty (b : Build) : ∀ k ∈ b.kinds, k.name ≠ "" := fun k _ => by
  cases k <;> decide

end Build

/-! ## Founding calls -/

/-- The kind of backend whose creation a call begins. -/
def Call.founds : Call → Option Kind
  | epollCreate _ => some .epoll
  | kqueueCreate => some .kqueue
  | ringCreate .. => some .ring
  | _ => none

theorem Call.founds_eq_none {c : Call} (h : c.begins = false) : c.founds = none := by
  cases c <;> first | rfl | cases h

theorem Call.begins_of_isInert {c : Call} (h : c.isInert = true) : c.begins = false := by
  cases c <;> first | rfl | cases h

theorem Call.begins_of_ends {c : Call} (h : c.ends = true) : c.begins = false := by
  cases c <;> first | rfl | cases h

/-- The kinds of backend whose creation some calls begin, in order. -/
def founded (xs : List Exchange) : List Kind := xs.filterMap (·.call.founds)

theorem founded_eq_nil {xs : List Exchange} (h : ∀ x ∈ xs, x.call.begins = false) : founded xs = [] :=
  List.filterMap_eq_nil_iff.2 fun x hx => Call.founds_eq_none (h x hx)

theorem founded_append (xs ys : List Exchange) : founded (xs ++ ys) = founded xs ++ founded ys :=
  List.filterMap_append

/-! ## Attempts -/

/-- An attempt to create a backend of a kind, as it came out. -/
structure Trial where
  kind : Kind
  code : Code
  backend : Backend

namespace Backend

/-- How an attempt to create a backend of a kind comes out: with the answer to its initialisation. -/
def trial (u : Setup) (k : Kind) (w : World K) : Trial :=
  let result := (ofKind u k).init u (note (.trying k) w).2
  ⟨k, result.1.1, result.1.2⟩

/-- One world comes after another by attempts, with nothing but notes in between. -/
inductive Tried (u : Setup) : World K → List Trial → World K → Prop
  | refl (w : World K) : Tried u w [] w
  | noted {w v : World K} {ts : List Trial} (n : Note) (h : Tried u (note n w).2 ts v) : Tried u w ts v
  | cons {w v : World K} {ts : List Trial} (k : Kind) (h : Tried u (attempt u k w).2 ts v) :
    Tried u w (trial u k w :: ts) v

variable {u : Setup}

theorem Tried.trans {w v x : World K} {ts ts' : List Trial} (h : Tried u w ts v) (h' : Tried u v ts' x) :
    Tried u w (ts ++ ts') x := by
  induction h with
  | refl => exact h'
  | noted n _ ih => exact .noted n (ih h')
  | cons k _ ih => exact .cons k (ih h')

variable (u)

/-- An attempt has a backend to show if its initialisation succeeds. -/
theorem attempt_fst (k : Kind) (w : World K) :
    (attempt u k w).1 = if (trial u k w).code = Code.success then some (trial u k w).backend else none := by
  unfold attempt
  simp only [Sys.bind_apply, Sys.ite_apply]
  show (ite ((trial u k w).code = Code.success) _ _ : Option Backend × World K).1 = _
  split <;> rfl

/-! ## Calls of attempts -/

/-- The creation of a backend begins with the call for its kind. -/
theorem shows_init_founds (k : Kind) :
    Shows (K := K) [] ((ofKind u k).init u) fun _ xs => xs.head?.bind (·.call.founds) = some k := by
  cases k with
  | epoll =>
    have hinit : Shows (K := K) [] (Epoll.init {} u.strategy) fun _ xs =>
        xs.head?.bind (·.call.founds) = some .epoll := by
      rw [Epoll.init_eq]
      refine .call_bind fun reply t => ?_
      cases reply with
      | error r => exact .note_bind (.pure rfl)
      | ok fd => exact (Epoll.built_openChannel _ _).confined.shows.after _ fun _ _ _ => rfl
    exact hinit.bind fun _ _ hxs => .pure hxs
  | ring =>
    refine Shows.bind (.call_bind fun reply t => ?_) fun _ _ hxs => .pure hxs
    cases reply with
    | error code => exact .note_bind (.pure rfl)
    | ok offer =>
      dsimp only
      split
      · exact .note_bind (.pure rfl)
      · exact .note_bind (.pure rfl)
  | kqueue =>
    have hinit : Shows (K := K) [] (Kqueue.init {} u.filterStrategy) fun _ xs =>
        xs.head?.bind (·.call.founds) = some .kqueue := by
      rw [Kqueue.init_eq]
      refine .call_bind fun reply t => ?_
      cases reply with
      | error r => exact .note_bind (.pure rfl)
      | ok fd =>
        refine .call_bind fun reply t => ?_
        cases reply with
        | error code => exact .note_bind (.pure rfl)
        | ok _ => exact (Kqueue.built_openWaker _ _).confined.shows.after _ fun _ _ _ => rfl
    exact hinit.bind fun _ _ hxs => .pure hxs

theorem founded_of_incurred {d : Dues} {k : Kind} {xs : List Exchange} (h : d.Incurred xs)
    (hk : xs.head?.bind (·.call.founds) = some k) : founded xs = [k] := by
  cases h with
  | @cons x xs _ _ _ he =>
    have hx : x.call.founds = some k := hk
    have hcons : founded (x :: xs) = k :: founded xs := by simp [founded, hx]
    rw [hcons, founded_eq_nil he.begins]

theorem founded_of_paid {d : Dues} {xs detaching closing : List Exchange} (h : d.Incurred xs)
    (hp : d.Paid detaching closing) : founded (detaching ++ closing) = [] := by
  have hl := Dues.settled h (List.forall_mem_nil _) hp
  refine founded_eq_nil (List.forall_mem_append.2 ⟨fun x hx => ?_, fun x hx => ?_⟩)
  · exact Call.begins_of_isInert (hl.inert x (List.mem_append_right _ hx))
  · exact Call.begins_of_ends (hl.ends x hx)

/-- An attempt founds one backend, of its kind, and what fails is given up without founding another. -/
theorem shows_attempt_founded (k : Kind) : Shows (K := K) [] (attempt u k) fun _ xs => founded xs = [k] := by
  have hinit := (shows_init (K := K) u k).and (shows_init_founds u k)
  refine .note_bind (hinit.bind fun ⟨code, b⟩ xs ⟨hxs, hk⟩ => ?_)
  have hfounded : founded xs = [k] := founded_of_incurred hxs hk
  have hdrop : Shows (K := K) xs b.drop fun _ zs => founded zs = [k] := by
    refine b.shows_drop.after xs ?_
    rintro _ _ ⟨detaching, closing, rfl, hp⟩
    rw [founded_append, hfounded, founded_of_paid hxs hp]
    rfl
  dsimp only
  split
  · exact .pure hfounded
  · exact .note_bind (hdrop.bind fun _ _ hzs => .pure hzs)

variable {u}

theorem Tried.founded {w v : World K} {ts : List Trial} (h : Tried u w ts v) :
    ∃ xs, v.trace = w.trace ++ xs ∧ Vigil.founded xs = ts.map Trial.kind := by
  induction h with
  | refl w => exact ⟨[], (List.append_nil _).symm, rfl⟩
  | noted n _ ih => exact ih
  | @cons w v ts k h ih =>
    obtain ⟨xs, hp, hxs⟩ := shows_attempt_founded u k w
    obtain ⟨ys, htrace, hys⟩ := ih
    refine ⟨xs ++ ys, ?_, ?_⟩
    · rw [htrace, hp.trace, List.append_assoc]
    · have hxs : Vigil.founded xs = [k] := hxs
      rw [founded_append, hxs, hys]
      rfl

end Backend

/-! ## Choice -/

/-- Attempts in a given order, and the backend that is chosen by them. -/
structure Chosen (order : List Kind) (ts : List Trial) (b : Option Backend) : Prop where
  /-- They follow the order, from its beginning. -/
  follows : ts.map Trial.kind <+: order
  /-- Nothing is attempted after one that succeeds. -/
  stops : ∀ t ∈ ts.dropLast, t.code ≠ Code.success
  /-- The first one that succeeds is chosen. -/
  first : b = (ts.find? (·.code = Code.success)).map Trial.backend
  /-- There is none just if all are attempted and fail. -/
  exhausted : b = none ↔ ts.map Trial.kind = order ∧ ∀ t ∈ ts, t.code ≠ Code.success

namespace Chosen

variable {order : List Kind} {t : Trial} {ts : List Trial} {b : Option Backend}

theorem nil : Chosen [] [] none := ⟨List.nil_prefix, by simp, rfl, by simp⟩

theorem found (h : t.code = Code.success) : Chosen (t.kind :: order) [t] (some t.backend) where
  follows := by simp
  stops := by simp
  first := by simp [h]
  exhausted := by simp [h]

theorem failed (h : t.code ≠ Code.success) (hc : Chosen order ts b) : Chosen (t.kind :: order) (t :: ts) b where
  follows := by simpa using hc.follows
  stops := by
    have hstops := hc.stops
    cases ts with
    | nil => simp
    | cons u us => simpa [h] using hstops
  first := by simpa [h] using hc.first
  exhausted := by simpa [h] using hc.exhausted

end Chosen

namespace Backend

/-- An attempt comes first, and if it fails, others follow. -/
theorem chosen_attempt (u : Setup) {k : Kind} {ks : List Kind} {m : Sys K (Option Backend)}
    (hm : ∀ w, ∃ ts, Tried u w ts (m w).2 ∧ Chosen ks ts (m w).1) (w : World K) :
    let found := (do
      match ← attempt u k with
      | some b => pure (some b)
      | none => m : Sys K (Option Backend)) w
    ∃ ts, Tried u w ts found.2 ∧ Chosen (k :: ks) ts found.1 := by
  intro found
  let t := trial u k w
  let v := (attempt u k w).2
  have hfst := attempt_fst u k w
  by_cases ht : t.code = Code.success
  · have hattempt : attempt u k w = (some t.backend, v) := Prod.ext (hfst.trans (if_pos ht)) rfl
    have hfound : found = (some t.backend, v) := by
      show (attempt u k >>= _) w = _
      rw [Sys.bind_apply, hattempt]
      rfl
    rw [hfound]
    exact ⟨[t], .cons k (.refl v), .found ht⟩
  · have hattempt : attempt u k w = (none, v) := Prod.ext (hfst.trans (if_neg ht)) rfl
    have hfound : found = m v := by
      show (attempt u k >>= _) w = _
      rw [Sys.bind_apply, hattempt]
    rw [hfound]
    obtain ⟨ts, htried, hchosen⟩ := hm v
    exact ⟨t :: ts, .cons k htried, .failed ht hchosen⟩

theorem chosen_selectFirst (u : Setup) : ∀ (ks : List Kind) (w : World K),
    ∃ ts, Tried u w ts (selectFirst u ks w).2 ∧ Chosen ks ts (selectFirst u ks w).1
  | [], _ => ⟨[], .noted .noneAvailable (.refl _), .nil⟩
  | _ :: ks, w => chosen_attempt u (chosen_selectFirst u ks) w

/-- A name that no kind has is only noted. -/
theorem select_of_absent (u : Setup) {preferred : String}
    (hne : preferred ≠ "") (h : u.build.find? preferred = none) (w : World K) :
    select u preferred w =
      selectFirst u (u.build.kinds.filter (·.name ≠ preferred)) (note (.notBuilt preferred) w).2 := by
  unfold select selectNamed
  rw [h, if_neg hne]
  rfl

/-- A name that some kind has is attempted first. -/
theorem select_of_found (u : Setup) {preferred : String} {k : Kind}
    (h : u.build.find? preferred = some k) :
    select (K := K) u preferred = (do
      match ← attempt u k with
      | some b => pure (some b)
      | none => selectFirst u (u.build.kinds.filter (·.name ≠ preferred))) := by
  have hne : preferred ≠ "" := by
    rintro rfl
    have hname := List.find?_some h
    exact u.build.absent_empty k (List.mem_of_find?_eq_some h) (by simpa using hname)
  have hnamed : selectNamed (K := K) u preferred = attempt u k := by
    unfold selectNamed
    rw [h]
  exact (if_neg hne).trans (congrArg (· >>= _) hnamed)

theorem select_empty (u : Setup) :
    select (K := K) u "" = selectFirst u u.build.kinds := by
  have hall : u.build.kinds.filter (·.name ≠ "") = u.build.kinds := by simpa using u.build.absent_empty
  unfold select
  rw [if_pos rfl, hall]

/-- A selection follows the order of preference. -/
theorem chosen_select (u : Setup) (preferred : String) (w : World K) :
    ∃ ts, Tried u w ts (select u preferred w).2 ∧
      Chosen (u.build.preferring preferred) ts (select u preferred w).1 := by
  unfold Build.preferring
  cases hfind : u.build.find? preferred with
  | some k =>
    rw [select_of_found u hfind, Build.filter_name_of_some hfind]
    exact chosen_attempt u (chosen_selectFirst u _) w
  | none =>
    rw [Build.filter_name_of_none hfind, List.nil_append]
    by_cases hne : preferred = ""
    · unfold select
      rw [if_pos hne]
      exact chosen_selectFirst u _ w
    · rw [select_of_absent u hne hfind]
      obtain ⟨ts, htried, hchosen⟩ := chosen_selectFirst u (u.build.kinds.filter (·.name ≠ preferred))
        (note (.notBuilt preferred) w).2
      exact ⟨ts, .noted _ htried, hchosen⟩

/-- A preferred name that no kind has is like none: what is done and what comes of it are the same. -/
theorem select_absent_agrees (u : Setup) {preferred : String}
    (h : ∀ k ∈ u.build.kinds, k.name ≠ preferred) (w : World K) :
    let x := select u preferred w
    let y := select u "" w
    x.1 = y.1 ∧ x.2.kernel = y.2.kernel ∧ x.2.trace = y.2.trace := by
  intro x y
  by_cases hne : preferred = ""
  · subst hne
    exact ⟨rfl, rfl, rfl⟩
  · have hfind : u.build.find? preferred = none := by simpa [Build.find?] using h
    have hall : u.build.kinds.filter (·.name ≠ preferred) = u.build.kinds := by simpa using h
    have hx : x = selectFirst u u.build.kinds (note (.notBuilt preferred) w).2 := by
      rw [← hall]
      exact select_of_absent u hne hfind w
    have hy : y = selectFirst u u.build.kinds w := by
      show select u "" w = _
      rw [select_empty]
    have hkernel : (note (.notBuilt preferred) w).2.kernel = w.kernel := rfl
    obtain ⟨b, v, hnoted, hbare⟩ := (built_selectFirst u u.build.kinds).oblivious.agree hkernel
    rw [hx, hy, hnoted, hbare]
    exact ⟨rfl, rfl, rfl⟩

end Backend

/-- **Selection.** A selection attempts each kind of a build at most once: the one of the preferred name first, if there
is one, and then the others in the order of the build. It creates the first backend whose initialisation
succeeds and attempts nothing after it, and none just if all are attempted and fail. Each attempt makes one call that
founds a backend, and no other calls do. A preferred name that no kind has, such as an empty one, changes neither the
order nor what is called nor what is created. -/
theorem selection_ordered (u : Setup) (preferred : String) (w : World K) :
    let order := u.build.preferring preferred
    let result := Backend.select u preferred w
    order.Perm u.build.kinds ∧ order.Nodup ∧
    (∃ ts xs, Backend.Tried u w ts result.2 ∧ Chosen order ts result.1 ∧
      result.2.trace = w.trace ++ xs ∧ founded xs = ts.map Trial.kind) ∧
    ((∀ k ∈ u.build.kinds, k.name ≠ preferred) →
      let usual := Backend.select u "" w
      order = u.build.kinds ∧ u.build.preferring "" = u.build.kinds ∧
        result.1 = usual.1 ∧ result.2.kernel = usual.2.kernel ∧ result.2.trace = usual.2.trace) := by
  intro order result
  obtain ⟨ts, htried, hchosen⟩ := Backend.chosen_select u preferred w
  obtain ⟨xs, htrace, hfounded⟩ := htried.founded
  refine ⟨u.build.preferring_perm preferred, u.build.nodup_preferring preferred,
    ⟨ts, xs, htried, hchosen, htrace, hfounded⟩, fun habsent => ⟨?_, ?_, ?_⟩⟩
  · exact Build.preferring_of_absent habsent
  · exact Build.preferring_of_absent u.build.absent_empty
  · exact Backend.select_absent_agrees u habsent w

/-- A preferred ring cannot be created, so the poll set is, which comes first without a preference. In a build without
rings their name is as good as none. -/
theorem selection_ordered_fallback :
    let full : Setup := { build := Platform.linux.build }
    let bare : Setup := { build := { epoll := true } }
    let w := Replay.world { script := [(.ringCreate, { error := some Code.invalid })] }
    let r := Backend.select full "io_uring" w
    let r' := Backend.select bare "io_uring" w
    let usual := Backend.select bare "" w
    r.1.map Backend.kind = some .epoll ∧ founded r.2.trace = [.ring, .epoll] ∧ founded r'.2.trace = [.epoll] ∧
      (∃ ts, Backend.Tried full w ts r.2 ∧ Chosen [.ring, .epoll] ts r.1) ∧
      r'.1 = usual.1 ∧ r'.2.trace = usual.2.trace := by
  intro full bare w r r' usual
  obtain ⟨-, -, ⟨ts, -, htried, hchosen, -⟩, -⟩ := selection_ordered (K := Replay.kernel) full "io_uring" w
  obtain ⟨-, -, hsame, -, htrace⟩ :=
    (selection_ordered (K := Replay.kernel) bare "io_uring" w).2.2.2 (by decide)
  refine ⟨by decide +kernel, by decide +kernel, by decide +kernel, ⟨ts, htried, hchosen⟩, hsame, htrace⟩

end Vigil
