import Mathlib.Algebra.BigOperators.Fin
import Mathlib.Algebra.BigOperators.Group.Multiset.Basic
import Mathlib.Algebra.Order.BigOperators.Group.Finset
import Mathlib.Algebra.Order.Group.Multiset
import Mathlib.Tactic.Abel
import Vigil.Proofs.CompletionPort.Failures

/-!
# Ownership of handles

Handles of queues travel between the places of a rack. A history says how often each was handed out (`opened`) and how
often it was passed on to be closed (`closed`); a rack says how often each is held (`Rack.held`).

- `Fresh`: no handle is handed out while it is out. A system that never hands out the same handle twice is fresh
  (`fresh_of_nodup`);
- `Rack.Does`: what each act on a rack can do. An owner that gives up its handle closes it once, and nothing else
  (`ends_reset_closes`); what moves leaves its place empty;
- `Owned`: what was handed out is what was closed and what is held, and nothing is held twice. Each act keeps this
  (`Owned.does`), so any number of them do (`Rack.ends_actAll`), and so does giving up places (`Rack.ends_drop`);
- `handles_owned`: the owners of handles at each moment of a run, and what is closed by its end.
-/

namespace Vigil

namespace CompletionPort

variable {S : System} {n : Nat}

/-! ## Handles in a history -/

/-- The handle of a new queue that was handed out. -/
def Exchange.opened : Exchange → Multiset Handle
  | ⟨.createQueue _ queue _ _, h⟩ => if queue = noHandle ∧ h ≠ noHandle then {h} else 0
  | _ => 0

/-- The handle that was passed on to be closed, whether that failed or not. -/
def Exchange.closed : Exchange → Multiset Handle
  | ⟨.close h, _⟩ => {h}
  | _ => 0

/-- The handles that were handed out, each as often as it was. -/
def opened (xs : List Exchange) : Multiset Handle := (xs.map Exchange.opened).sum

/-- The handles that were passed on to be closed, each as often as it was. -/
def closed (xs : List Exchange) : Multiset Handle := (xs.map Exchange.closed).sum

theorem opened_append (xs ys : List Exchange) : opened (xs ++ ys) = opened xs + opened ys := by
  rw [opened, List.map_append, List.sum_append]
  rfl

theorem closed_append (xs ys : List Exchange) : closed (xs ++ ys) = closed xs + closed ys := by
  rw [closed, List.map_append, List.sum_append]
  rfl

theorem opened_singleton (x : Exchange) : opened [x] = x.opened := Multiset.add_zero _

/-- A handle is handed out only while it is not out: as often as that was done before, it was passed on to be closed. -/
def Fresh (t : List Exchange) : Prop :=
  ∀ xs x ys, t = xs ++ x :: ys → ∀ h ∈ x.opened, h ∉ opened xs - closed xs

theorem Fresh.left {xs ys : List Exchange} (h : Fresh (xs ++ ys)) : Fresh xs := by
  rintro zs x xs' rfl
  exact h zs x (xs' ++ ys) (by rw [List.append_assoc, List.cons_append])

/-- A handle is not out if it was never handed out. -/
theorem fresh_of_nodup {t : List Exchange} (h : (opened t).Nodup) : Fresh t := by
  rintro xs x ys rfl k hk hout
  rw [opened_append, ← List.singleton_append, opened_append, opened_singleton] at h
  have hapart : Disjoint (opened xs) (x.opened + opened ys) := (Multiset.nodup_add.1 h).2.2
  have hbefore : k ∈ opened xs := Multiset.mem_of_le (Multiset.sub_le_self _ _) hout
  exact Multiset.disjoint_left.1 hapart hbefore (Multiset.mem_add.2 (.inl hk))

/-! ## Handles of owners -/

/-- The handle of an owner, if it has one. -/
def own (p : CompletionPort) : Multiset Handle := if p.handle = noHandle then 0 else {p.handle}

theorem own_default : own {} = 0 := rfl

theorem nodup_own (p : CompletionPort) : p.own.Nodup := by
  unfold own
  split
  · exact Multiset.nodup_zero
  · exact Multiset.nodup_singleton _

/-- A new queue is handed out to its owner. -/
theorem opened_createQueue (file : Handle) (key : Key) (threads : UInt32) (h : Handle) :
    Exchange.opened ⟨.createQueue file noHandle key threads, h⟩ = own ⟨h⟩ := by
  by_cases hnone : h = noHandle <;> simp [Exchange.opened, own, hnone]

namespace Rack

/-- The handles of all owners. -/
def held (r : Rack n) : Multiset Handle := ∑ i, (r i).own

theorem put_eq_update (r : Rack n) (i : Fin n) (p : CompletionPort) : r.put i p = Function.update r i p :=
  funext fun _ => (Function.update_apply ..).symm

theorem put_self (r : Rack n) (i : Fin n) (p : CompletionPort) : r.put i p i = p := if_pos rfl

theorem put_of_ne (r : Rack n) {i j : Fin n} (h : j ≠ i) (p : CompletionPort) : r.put i p j = r j := if_neg h

theorem put_put (r : Rack n) (i : Fin n) (p q : CompletionPort) : (r.put i p).put i q = r.put i q := by
  rw [put_eq_update, put_eq_update, put_eq_update, Function.update_idem]

theorem put_eq_self (r : Rack n) (i : Fin n) : r.put i (r i) = r := by rw [put_eq_update, Function.update_eq_self]

theorem put_comm (r : Rack n) {i j : Fin n} (h : i ≠ j) (p q : CompletionPort) :
    (r.put i p).put j q = (r.put j q).put i p := by
  rw [put_eq_update, put_eq_update, put_eq_update, put_eq_update, Function.update_comm h]

/-- A new owner takes the place of another one. -/
theorem held_put (r : Rack n) (i : Fin n) (p : CompletionPort) : (r.put i p).held + (r i).own = r.held + p.own := by
  have hrest : ∑ j ∈ Finset.univ.erase i, (r.put i p j).own = ∑ j ∈ Finset.univ.erase i, (r j).own :=
    Finset.sum_congr rfl fun j hj => by rw [put_of_ne r (Finset.ne_of_mem_erase hj)]
  rw [held, held, ← Finset.add_sum_erase _ _ (Finset.mem_univ i), ← Finset.add_sum_erase _ _ (Finset.mem_univ i), hrest,
    put_self]
  abel

/-- An owner is taken out of its place. -/
theorem held_take (r : Rack n) (i : Fin n) : (r.put i {}).held + (r i).own = r.held := by
  rw [held_put, own_default, add_zero]

theorem own_le_held (r : Rack n) (i : Fin n) : (r i).own ≤ r.held :=
  Finset.single_le_sum (f := fun i => (r i).own) (fun _ _ => Multiset.zero_le _) (Finset.mem_univ i)

/-- If no handle is held twice, no two owners hold the same one. -/
theorem eq_noHandle_of_same {r : Rack n} (h : r.held.Nodup) {i j : Fin n} (hij : i ≠ j)
    (hsame : (r i).handle = (r j).handle) : (r i).handle = noHandle := by
  by_contra hsome
  have hj : (r i).handle ∈ (r.put i {}).held := by
    refine Multiset.mem_of_le (own_le_held _ j) ?_
    rw [put_of_ne r hij.symm, own, if_neg (hsame ▸ hsome), hsame]
    exact Multiset.mem_singleton_self _
  have hi : (r i).handle ∈ (r i).own := by
    rw [own, if_neg hsome]
    exact Multiset.mem_singleton_self _
  rw [← held_take r i] at h
  exact Multiset.disjoint_left.1 (Multiset.nodup_add.1 h).2.2 hj hi

theorem held_empty : (empty : Rack n).held = 0 := Finset.sum_eq_zero fun _ _ => rfl

/-- A handle moves to the place of another owner. -/
theorem held_move (r : Rack n) {into source : Fin n} (h : into ≠ source) :
    ((r.put into (r source)).put source {}).held + (r into).own = r.held := by
  have hsource := held_take (r.put into (r source)) source
  have hinto := held_put r into (r source)
  rw [put_of_ne r h.symm] at hsource
  have hall : ((r.put into (r source)).put source {}).held + (r into).own + (r source).own =
      r.held + (r source).own := by
    rw [← hinto, ← hsource]
    abel
  exact add_right_cancel hall

end Rack

/-! ## Closing -/

/-- Between two worlds, no handle was handed out, and some were passed on to be closed. -/
def Closes (w v : World S) (hs : Multiset Handle) : Prop :=
  ∃ xs, v.trace = w.trace ++ xs ∧ opened xs = 0 ∧ closed xs = hs

theorem Closes.refl (w : World S) : Closes w w 0 := ⟨[], (List.append_nil _).symm, rfl, rfl⟩

/-- An owner that gives up its handle closes it, once, and nothing else. -/
theorem ends_reset_closes (p : CompletionPort) (w : World S) :
    Ends w p.reset fun p' v => p' = {} ∧ Closes w v p.own := by
  refine .ite (fun hnone => ?_) fun hsome => ?_
  · have hp : p = {} := congrArg CompletionPort.mk hnone
    exact .pure ⟨hp, hp ▸ .refl w⟩
  · refine .bind (.note (.bind (.call fun reply v hasks => ?_)))
    have hcloses : Closes w v p.own := ⟨_, hasks.trace, rfl, (if_neg hsome).symm⟩
    exact .ite (fun _ => .bind (.lastError (.bind (.note (.pure ⟨rfl, hcloses⟩))))) fun _ => .pure ⟨rfl, hcloses⟩

/-! ## Steps -/

/-- What is done with owners and their places. -/
inductive Act (n : Nat) where
  /-- Create a queue for the owner of a place. -/
  | init (place : Fin n)
  /-- Construct an owner from that of a place, and have it replace the owner of another place. -/
  | moveConstruct (into source : Fin n)
  /-- Assign the owner of a place to another place. -/
  | moveAssign (into source : Fin n)
  /-- Give up the owner of a place. -/
  | destroy (place : Fin n)

namespace Rack

/-- Does something with the owners of a rack. -/
def act (r : Rack n) : Act n → Ops S (Rack n)
  | .init i => do
    let (_, p) ← (r i).init
    pure (r.put i p)
  | .moveConstruct into source => r.moveConstruct into source
  | .moveAssign into source => r.moveAssign into source
  | .destroy i => r.drop [i]

/-- Does several things, in order. -/
def actAll (r : Rack n) : List (Act n) → Ops S (Rack n)
  | [] => pure r
  | a :: as => do (← r.act a).actAll as

/-- How a handle moves from one place into another. Into its own place nothing moves; otherwise the owner of that place
gives its handle up before. -/
inductive Moves (r : Rack n) (into source : Fin n) (w : World S) : Rack n → World S → Prop
  | stays (h : into = source) : Moves r into source w r w
  | moves {v : World S} (h : into ≠ source) (hcloses : Closes w v (r into).own) :
    Moves r into source w ((r.put into (r source)).put source {}) v

/-- What an act can do. -/
inductive Does (r : Rack n) (w : World S) : Act n → Rack n → World S → Prop
  | init {i : Fin n} {u v : World S} {h : Handle} (hcloses : Closes w u (r i).own)
    (hasks : Asks (.createQueue invalidHandle noHandle 0 0) h u v) : Does r w (.init i) (r.put i ⟨h⟩) v
  | moveConstruct {into source : Fin n} {r' : Rack n} {v : World S} (h : r.Moves into source w r' v) :
    Does r w (.moveConstruct into source) r' v
  | moveAssign {into source : Fin n} {r' : Rack n} {v : World S} (h : r.Moves into source w r' v) :
    Does r w (.moveAssign into source) r' v
  | destroy {i : Fin n} {v : World S} (hcloses : Closes w v (r i).own) : Does r w (.destroy i) (r.put i {}) v

theorem ends_moveConstruct (r : Rack n) (into source : Fin n) (w : World S) :
    Ends w (r.moveConstruct into source) (r.Moves into source w) := by
  by_cases h : into = source
  · subst h
    -- The place was emptied before its owner is replaced, so nothing is closed and the handle comes back.
    have hreset : Ends w ((r.put into {}) into).reset fun _ v => v = w := by
      rw [put_self]
      exact .ite (fun _ => .pure rfl) fun hsome => absurd rfl hsome
    refine .bind (hreset.mono fun p' v hv => .pure ?_)
    subst hv
    rw [put_put, put_eq_self]
    exact .stays rfl
  · refine .bind ((ends_reset_closes _ w).mono fun p' v hv => .pure ?_)
    rw [← put_comm r h]
    exact .moves h (put_of_ne r h {} ▸ hv.2)

theorem ends_moveAssign (r : Rack n) (into source : Fin n) (w : World S) :
    Ends w (r.moveAssign into source) (r.Moves into source w) :=
  .ite (fun h => .pure (.stays h)) fun h =>
    .bind ((ends_reset_closes _ w).mono fun _ _ hv => .pure (.moves h hv.2))

theorem ends_drop_singleton (r : Rack n) (i : Fin n) (w : World S) :
    Ends w (r.drop [i]) fun r' v => r' = r.put i {} ∧ Closes w v (r i).own :=
  .bind ((ends_reset_closes _ w).mono fun _ _ hv => .pure ⟨congrArg (r.put i) hv.1, hv.2⟩)

/-- An act does what it can do. -/
theorem ends_act (r : Rack n) (a : Act n) (w : World S) : Ends w (r.act a) (r.Does w a) := by
  cases a with
  | init i =>
    obtain ⟨h, hasks, hp⟩ := ends_init (r i) w
    have hmk : ((r i).init w).1.2 = ⟨h⟩ := by
      rw [hp]
      split
      · rename_i hnone
        rw [hnone]
      · rfl
    have hdoes := Does.init (i := i) (ends_reset_closes (r i) w).2 hasks
    rw [← hmk] at hdoes
    exact .bind hdoes
  | moveConstruct into source => exact (r.ends_moveConstruct into source w).mono fun _ _ h => .moveConstruct h
  | moveAssign into source => exact (r.ends_moveAssign into source w).mono fun _ _ h => .moveAssign h
  | destroy i => exact (r.ends_drop_singleton i w).mono fun _ _ h => h.1 ▸ .destroy h.2

end Rack

/-! ## Ownership -/

/-- Each handle that was handed out was closed, or else it has one owner. -/
structure Owned (r : Rack n) (t : List Exchange) : Prop where
  balance : opened t = closed t + r.held
  nodup : r.held.Nodup

namespace Owned

variable {r r' : Rack n} {u v w : World S}

/-- A handle is given up and closed. -/
theorem closes (h : Owned r w.trace) {i : Fin n} (hcloses : Closes w v (r i).own)
    (hheld : r'.held + (r i).own = r.held) : Owned r' v.trace := by
  obtain ⟨xs, htrace, hopened, hclosed⟩ := hcloses
  refine ⟨?_, Multiset.nodup_of_le (hheld ▸ Multiset.le_add_right _ _) h.nodup⟩
  rw [htrace, opened_append, closed_append, hopened, hclosed, add_zero, h.balance, ← hheld]
  abel

/-- A new handle is not held by anyone: what is out is what is held. -/
theorem creates (hr : Owned r u.trace) {i : Fin n} (hi : r i = {}) {h : Handle}
    (hasks : Asks (.createQueue invalidHandle noHandle 0 0) h u v) (hfresh : Fresh v.trace) :
    Owned (r.put i ⟨h⟩) v.trace := by
  have hheld : (r.put i ⟨h⟩).held = r.held + own ⟨h⟩ := by
    have hput := r.held_put i ⟨h⟩
    rwa [hi, own_default, add_zero] at hput
  have hout : opened u.trace - closed u.trace = r.held := by rw [hr.balance, add_tsub_cancel_left]
  have hnew : ∀ x ∈ own ⟨h⟩, x ∉ r.held := by
    have hmiddle := hfresh u.trace ⟨.createQueue invalidHandle noHandle 0 0, h⟩ [] hasks.trace
    rwa [opened_createQueue, hout] at hmiddle
  refine ⟨?_, ?_⟩
  · rw [hasks.trace, opened_append, closed_append, opened_singleton, opened_createQueue, hr.balance, hheld, add_assoc]
    exact congrArg (· + _) (add_zero _).symm
  · rw [hheld, Multiset.nodup_add]
    exact ⟨hr.nodup, nodup_own _, Multiset.disjoint_right.2 fun hx => hnew _ hx⟩

/-- Each act keeps the balance of the handles. -/
theorem does (hr : Owned r w.trace) {a : Act n} (h : r.Does w a r' v) (hfresh : Fresh v.trace) : Owned r' v.trace := by
  have hmoves {into source : Fin n} (hmoves : r.Moves into source w r' v) : Owned r' v.trace := by
    cases hmoves with
    | stays _ => exact hr
    | moves hne hcloses => exact hr.closes hcloses (r.held_move hne)
  cases h with
  | @init i u _ h hcloses hasks =>
    -- The handle from before is given up in any case; a failed creation then adds none.
    have hgiven : Owned (r.put i {}) u.trace := hr.closes hcloses (r.held_take i)
    rw [← r.put_put i {}]
    exact hgiven.creates (r.put_self i {}) hasks hfresh
  | moveConstruct h => exact hmoves h
  | moveAssign h => exact hmoves h
  | @destroy i _ hcloses => exact hr.closes hcloses (r.held_take i)

end Owned

/-! ## Runs -/

namespace Rack

variable {r r' : Rack n} {v w : World S}

/-- What an act adds to a history. -/
theorem Does.trace {a : Act n} (h : r.Does w a r' v) : ∃ xs, v.trace = w.trace ++ xs := by
  have hmoves {into source : Fin n} (hmoves : r.Moves into source w r' v) : ∃ xs, v.trace = w.trace ++ xs := by
    cases hmoves with
    | stays _ => exact ⟨[], (List.append_nil _).symm⟩
    | moves _ hcloses => exact hcloses.imp fun _ hxs => hxs.1
  cases h with
  | @init i u _ h hcloses hasks =>
    obtain ⟨xs, hxs, -⟩ := hcloses
    exact ⟨_, by rw [hasks.trace, hxs, List.append_assoc]⟩
  | moveConstruct h => exact hmoves h
  | moveAssign h => exact hmoves h
  | destroy hcloses => exact hcloses.imp fun _ hxs => hxs.1

theorem ends_actAll (r : Rack n) (as : List (Act n)) (w : World S) :
    Ends w (r.actAll as) fun r' v =>
      (∃ xs, v.trace = w.trace ++ xs) ∧ (Owned r w.trace → Fresh v.trace → Owned r' v.trace) := by
  induction as generalizing r w with
  | nil => exact .pure ⟨⟨[], (List.append_nil _).symm⟩, fun h _ => h⟩
  | cons a as ih =>
    refine .bind ((r.ends_act a w).mono fun r₁ u hdoes => (ih r₁ u).mono fun r' v ⟨⟨ys, hys⟩, howned⟩ => ?_)
    obtain ⟨xs, hxs⟩ := hdoes.trace
    refine ⟨⟨xs ++ ys, by rw [hys, hxs, List.append_assoc]⟩, fun h hfresh => howned (h.does hdoes ?_) hfresh⟩
    exact Fresh.left (hys ▸ hfresh)

/-- Whoever gives up all places in some order closes what is held. -/
theorem ends_drop (r : Rack n) (is : List (Fin n)) (w : World S) :
    Ends w (r.drop is) fun r' v => (Owned r w.trace → Owned r' v.trace) ∧ ∀ i, r' i = if i ∈ is then {} else r i := by
  induction is generalizing r w with
  | nil => exact .pure ⟨id, fun i => (if_neg List.not_mem_nil).symm⟩
  | cons i is ih =>
    refine .bind ((ends_reset_closes _ w).mono fun p u hu => ?_)
    obtain ⟨rfl, hcloses⟩ := hu
    refine (ih (r.put i {}) u).mono fun r' v ⟨howned, hr'⟩ => ⟨fun h => howned ?_, fun j => ?_⟩
    · exact h.closes hcloses (r.held_take i)
    · rw [hr' j]
      by_cases hj : j = i
      · subst hj
        simp [put_self]
      · simp [hj, put_of_ne]

/-- What was done first was done in a run of everything. -/
theorem actAll_append (r : Rack n) (as bs : List (Act n)) (w : World S) :
    r.actAll (as ++ bs) w = (r.actAll as w).1.actAll bs (r.actAll as w).2 := by
  induction as generalizing r w with
  | nil => rfl
  | cons a as ih => exact ih (r.act a w).1 (r.act a w).2

theorem owned_empty : Owned (empty : Rack n) [] :=
  ⟨by rw [held_empty]; rfl, by rw [held_empty]; exact Multiset.nodup_zero⟩

end Rack

/-- **Ownership.** Let owners create queues, be constructed from others, be assigned to others or to themselves and be
destroyed, in any order, and let the system answer as it likes, except that it hands out no handle that is out. At each
moment, no two owners hold the same handle, and each that was handed out was passed on to be closed once or is held
once, so only those are closed that were handed out. What is done next closes the handle of the owner that gives it up
and no other one, and an owner that was moved from has none. When all places were given up, each handle was closed
exactly as often as it was handed out. -/
theorem handles_owned (s : S.State) (earlier later : List (Act n))
    (hfresh : Fresh ((Rack.empty.actAll (earlier ++ later) { system := s : World S }).2.trace)) :
    let r := (Rack.empty.actAll earlier { system := s : World S }).1
    let v := (Rack.empty.actAll earlier { system := s : World S }).2
    (∀ i j, i ≠ j → (r i).handle = (r j).handle → (r i).handle = noHandle) ∧
    opened v.trace = closed v.trace + r.held ∧ closed v.trace ≤ opened v.trace ∧
    (∀ a, Ends v (r.act a) (r.Does v a)) ∧
    (∀ into source, into ≠ source → ∀ a ∈ [Act.moveConstruct into source, .moveAssign into source],
      Ends v (r.act a) fun r' _ => r' source = {} ∧ r' into = r source) ∧
    ∀ order : List (Fin n), (∀ i, i ∈ order) →
      Ends v (r.drop order) fun r' v' => r' = Rack.empty ∧ closed v'.trace = opened v'.trace := by
  intro r v
  have howned : Owned r v.trace := by
    rw [Rack.actAll_append] at hfresh
    obtain ⟨xs, hxs⟩ := (r.ends_actAll later v).1
    exact (Rack.empty.ends_actAll earlier _).2 Rack.owned_empty (Fresh.left (hxs ▸ hfresh))
  refine ⟨fun i j hij => Rack.eq_noHandle_of_same howned.nodup hij, howned.balance, ?_, fun a => r.ends_act a v, ?_, ?_⟩
  · rw [howned.balance]
    exact Multiset.le_add_right _ _
  · intro into source hne a ha
    have hmoves : ∀ r' v', r.Moves into source v r' v' → r' source = {} ∧ r' into = r source := by
      rintro r' v' (heq | ⟨-, -⟩)
      · exact absurd heq hne
      · exact ⟨Rack.put_self _ _ _, by rw [Rack.put_of_ne _ hne, Rack.put_self]⟩
    rcases List.mem_pair.1 ha with rfl | rfl
    · exact (r.ends_moveConstruct into source v).mono hmoves
    · exact (r.ends_moveAssign into source v).mono hmoves
  · intro order horder
    refine (r.ends_drop order v).mono fun r' v' ⟨hkeeps, hplaces⟩ => ?_
    have hempty : r' = Rack.empty := funext fun i => (hplaces i).trans (if_pos (horder i))
    have hbalance := (hkeeps howned).balance
    rw [hempty, Rack.held_empty, add_zero] at hbalance
    exact ⟨hempty, hbalance.symm⟩

/-- The first queue is replaced although its handle cannot be closed, another place gets none, and the second queue is
assigned to its own place and then moved on twice, ahead of a third one. -/
theorem handles_owned_moved :
    let s : Replay := {
      script := [(.createQueue, {}), (.createQueue, { error := some WinError.notFound }),
        (.close, { error := some WinError.invalidHandle })] }
    let as : List (Act 3) := [.init 0, .init 1, .init 0, .moveAssign 0 0, .moveAssign 1 0, .moveConstruct 2 1, .init 0]
    let r := Rack.empty.actAll as { system := s : World Replay.system }
    let r' := r.1.drop [2, 1, 0] r.2
    opened r.2.trace = {4096, 4112, 4128} ∧ closed r.2.trace = {4096} ∧ r.1.held = {4112, 4128} ∧
      r'.1 = Rack.empty ∧ closed r'.2.trace = opened r'.2.trace := by
  intro s as r r'
  have hopened : opened r.2.trace = {4096, 4112, 4128} := by decide +kernel
  have hclosed : closed r.2.trace = {4096} := by decide +kernel
  -- What is left does not depend on what the acts are.
  clear_value s as
  have hfresh : Fresh (Rack.empty.actAll (as ++ []) { system := s : World Replay.system }).2.trace := by
    rw [List.append_nil]
    refine fresh_of_nodup ?_
    rw [hopened]
    decide
  obtain ⟨-, hbalance, -, -, -, hall⟩ := handles_owned (S := Replay.system) s as [] hfresh
  have hheld : r.1.held = {4112, 4128} := by
    refine add_left_cancel (hbalance.symm.trans ?_)
    rw [hclosed]
    exact hopened
  exact ⟨hopened, hclosed, hheld, hall [2, 1, 0] (by decide)⟩

end CompletionPort

end Vigil
