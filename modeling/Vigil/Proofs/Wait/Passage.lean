import Vigil.World

/-!
# Passages

What a program adds to the history of its world, and what the clock shows along that history.

- `clockAfter`: the clock after some exchanges, which is when the next one begins;
- `Passage`: from one world to another, some exchanges were added. Passages join (`Passage.trans`), and worlds that are
  reached by calls of some kind are reached by exchanges of that kind (`Reaches.passage`);
- `Shows`: what is true of a program's result and of the exchanges up to its end, given those before it. Each part of
  a program is shown given what the parts before it added (`Shows.bind`).
-/

namespace Vigil

variable {K : Kernel}

/-- The clock after some exchanges that began at `t`. -/
def clockAfter (t : Int) : List Exchange → Int
  | [] => t
  | x :: xs => clockAfter x.time xs

theorem clockAfter_append : ∀ (t : Int) (xs ys : List Exchange),
    clockAfter t (xs ++ ys) = clockAfter (clockAfter t xs) ys
  | _, [], _ => rfl
  | _, x :: xs, ys => clockAfter_append x.time xs ys

/-- From one world to another, some exchanges were added to the history. -/
structure Passage (w : World K) (xs : List Exchange) (v : World K) : Prop where
  trace : v.trace = w.trace ++ xs
  clock : K.clock v.kernel = clockAfter (K.clock w.kernel) xs

namespace Passage

theorem refl (w : World K) : Passage w [] w := ⟨(List.append_nil _).symm, rfl⟩

theorem trans {w v u : World K} {xs ys : List Exchange} (h : Passage w xs v) (h' : Passage v ys u) :
    Passage w (xs ++ ys) u :=
  ⟨by rw [h'.trace, h.trace, List.append_assoc], by rw [h'.clock, h.clock, clockAfter_append]⟩

theorem noted (n : Note) (w : World K) : Passage w [] (note n w).2 := ⟨(List.append_nil _).symm, rfl⟩

theorem called (c : Call) (w : World K) :
    Passage w [⟨c, (call c w).1, K.clock (call c w).2.kernel⟩] (call c w).2 :=
  ⟨rfl, rfl⟩

end Passage

/-- Worlds that are reached by calls of some kind are reached by exchanges of that kind. -/
theorem Reaches.passage {P : Call → Prop} {w v : World K} (h : Reaches P w v) :
    ∃ xs, Passage w xs v ∧ ∀ x ∈ xs, P x.call := by
  induction h with
  | refl => exact ⟨[], .refl w, List.forall_mem_nil _⟩
  | noted n _ ih =>
    obtain ⟨xs, hp, hxs⟩ := ih
    refine ⟨xs, ?_, hxs⟩
    have h := hp.trans (.noted n _)
    rwa [List.append_nil] at h
  | called hc _ ih =>
    obtain ⟨xs, hp, hxs⟩ := ih
    exact ⟨_, hp.trans (.called _ _), List.forall_mem_append.2 ⟨hxs, List.forall_mem_singleton.2 hc⟩⟩

/-! ## What programs add -/

/-- Wherever a program begins, after some exchanges, a property holds of its result and of all exchanges up to its
end. -/
def Shows {α : Type} (xs : List Exchange) (m : Sys K α) (Q : α → List Exchange → Prop) : Prop :=
  ∀ w, ∃ ys, Passage w ys (m w).2 ∧ Q (m w).1 (xs ++ ys)

namespace Shows

variable {α β : Type} {xs : List Exchange} {m : Sys K α} {Q : α → List Exchange → Prop}

theorem pure {a : α} (h : Q a xs) : Shows (K := K) xs (Pure.pure a) Q := fun w =>
  ⟨[], .refl w, by rwa [List.append_nil]⟩

theorem note {n : Note} {Q : Unit → List Exchange → Prop} (h : Q () xs) : Shows (K := K) xs (note n) Q := fun w =>
  ⟨[], .noted n w, by rwa [List.append_nil]⟩

theorem call {c : Call} {Q : Reply c → List Exchange → Prop} (h : ∀ reply t, Q reply (xs ++ [⟨c, reply, t⟩])) :
    Shows (K := K) xs (call c) Q := fun w =>
  ⟨_, .called c w, h _ _⟩

theorem mono {R : α → List Exchange → Prop} (h : Shows xs m R) (hR : ∀ a ys, R a ys → Q a ys) : Shows xs m Q :=
  fun w => by
    obtain ⟨ys, hp, hr⟩ := h w
    exact ⟨ys, hp, hR _ _ hr⟩

/-- If some exchanges are made and each is of a kind, then one of that kind is in the history. -/
theorem exists_mem {P : Exchange → Prop} (h : Shows [] m fun _ ys => ys ≠ [] ∧ ∀ y ∈ ys, P y) (w : World K) :
    ∃ y ∈ (m w).2.trace, P y := by
  obtain ⟨ys, hp, hne, hys⟩ := h w
  obtain ⟨y, hy⟩ := List.exists_mem_of_ne_nil ys hne
  refine ⟨y, ?_, hys y hy⟩
  rw [hp.trace]
  exact List.mem_append_right _ hy

/-- What is shown twice is shown of the same exchanges. -/
theorem and {R : α → List Exchange → Prop} (hq : Shows xs m Q) (hr : Shows xs m R) :
    Shows xs m fun a ys => Q a ys ∧ R a ys := fun w => by
  obtain ⟨ys, hp, hq⟩ := hq w
  obtain ⟨zs, hp', hr⟩ := hr w
  have hsame : zs = ys := List.append_cancel_left (hp'.trace.symm.trans hp.trace)
  exact ⟨ys, hp, hq, hsame ▸ hr⟩

theorem bind {R : β → List Exchange → Prop} {f : α → Sys K β} (hm : Shows xs m Q)
    (hf : ∀ a ys, Q a ys → Shows ys (f a) R) : Shows xs (m >>= f) R := fun w => by
  obtain ⟨ys, hp, hq⟩ := hm w
  obtain ⟨zs, hp', hr⟩ := hf _ _ hq (m w).2
  exact ⟨ys ++ zs, hp.trans hp', by rwa [← List.append_assoc]⟩

/-- What a program adds of its own, it adds after other exchanges. -/
theorem after {R : α → List Exchange → Prop} (h : Shows [] m R) (xs : List Exchange)
    (hR : ∀ a ys, R a ys → Q a (xs ++ ys)) : Shows xs m Q := fun w => by
  obtain ⟨ys, hp, hr⟩ := h w
  exact ⟨ys, hp, hR _ _ hr⟩

theorem bind_after {R : β → List Exchange → Prop} {f : α → Sys K β} (hm : Shows [] m Q)
    (hf : ∀ a ys, Q a ys → Shows (xs ++ ys) (f a) R) : Shows xs (m >>= f) R := by
  have h : Shows xs m fun a zs => ∃ ys, zs = xs ++ ys ∧ Q a ys := hm.after xs fun _ ys hq => ⟨ys, rfl, hq⟩
  refine h.bind ?_
  rintro a _ ⟨ys, rfl, hq⟩
  exact hf a ys hq

theorem note_bind {n : Note} (h : Shows xs m Q) : Shows xs (do Vigil.note n; m) Q := by
  have hnote : Shows (K := K) xs (Vigil.note n) fun _ ys => ys = xs := note rfl
  exact hnote.bind fun _ ys hys => hys ▸ h

theorem call_bind {c : Call} {f : Reply c → Sys K α} (h : ∀ reply t, Shows (xs ++ [⟨c, reply, t⟩]) (f reply) Q) :
    Shows xs (do f (← Vigil.call c)) Q := by
  have hcall : Shows (K := K) xs (Vigil.call c) fun reply ys => ∃ t, ys = xs ++ [⟨c, reply, t⟩] :=
    call fun _ t => ⟨t, rfl⟩
  refine hcall.bind ?_
  rintro reply _ ⟨t, rfl⟩
  exact h reply t

/-- What is shown by the first attempt, and by each repeated one given the attempts before it, is shown by all. -/
theorem insist {again : α → Bool} (hμ : ∀ w, again (m w).1 = true → (m w).2.patience < w.patience)
    (first : Shows xs m Q) (repeated : ∀ a ys, Q a ys → again a = true → Shows ys m Q) :
    Shows xs (insist again m) fun a ys => Q a ys ∧ again a = false := fun w => by
  let inv (a : α) (v : World K) : Prop := ∃ ys, Passage w ys v ∧ Q a (xs ++ ys)
  have hrepeat : ∀ a v, inv a v → again a = true → inv (m v).1 (m v).2 := by
    rintro a v ⟨ys, hp, hq⟩ ha
    obtain ⟨zs, hp', hq'⟩ := repeated a _ hq ha v
    exact ⟨ys ++ zs, hp.trans hp', by rwa [← List.append_assoc]⟩
  obtain ⟨⟨ys, hp, hq⟩, ha⟩ := @insist_induct K _ _ _ inv hμ w (first w) hrepeat
  exact ⟨ys, hp, hq, ha⟩

end Shows

/-- Programs that make only calls of some kind add only exchanges of that kind. -/
theorem Confined.shows {α : Type} {P : Call → Prop} {m : Sys K α} (h : Confined P m) :
    Shows [] m fun _ ys => ∀ y ∈ ys, P y.call := fun w => (h w).passage

end Vigil
