import Vigil.Proofs.RingPoller.Room

/-!
# Requests that are taken

What handing requests over comes to is decided by one answer, the last one, since interrupted calls are made again
(`shows_submit`).

- `TakesAll`: in a history, the kernel took all requests that it was handed, interruptions aside. `Taking` says so of
  what was added between two worlds, and is true of each part of what was added if it is true of all of it
  (`Reaches.taking`). It is more than `World.Accepting` asks for (`accepting_of_takesAll`);
- `submit_of_taking`: then handing requests over succeeds, and leaves none of them queued. So a ring of any capacity has
  room when room is asked for (`grants_of_taking`), whatever was queued before;
- `submit_of_failed`: where handing requests over fails, all of them stay queued.
-/

namespace Vigil

variable {K : Kernel}

/-! ## Histories in which requests are taken -/

/-- Whether the kernel left requests behind: it answered with an error that is no interruption, or took only some. -/
def Exchange.leavesRequests : Exchange → Bool
  | ⟨.ringSubmit _, .error code, _⟩ => code != Code.interrupted
  | ⟨.ringSubmit requests, .ok n, _⟩ => n < requests.length
  | _ => false

/-- The kernel took all requests that it was handed, interruptions aside. -/
def TakesAll (xs : List Exchange) : Prop := ∀ x ∈ xs, x.leavesRequests = false

instance (xs : List Exchange) : Decidable (TakesAll xs) := inferInstanceAs (Decidable (∀ x ∈ xs, _))

theorem takesAll_append {xs ys : List Exchange} : TakesAll (xs ++ ys) ↔ TakesAll xs ∧ TakesAll ys :=
  List.forall_mem_append

/-- From one world to a later one, the kernel took all requests that it was handed. -/
def Taking (w v : World K) : Prop := TakesAll (v.trace.drop w.trace.length)

instance (w v : World K) : Decidable (Taking w v) := inferInstanceAs (Decidable (TakesAll _))

theorem Passage.taking {w v : World K} {xs : List Exchange} (h : Passage w xs v) : Taking w v ↔ TakesAll xs := by
  unfold Taking
  rw [h.trace, List.drop_left]

/-- Both parts of a way are as the whole of it. -/
theorem Reaches.taking {P Q : Call → Prop} {w u v : World K} (h : Reaches P w u) (h' : Reaches Q u v)
    (ht : Taking w v) : Taking w u ∧ Taking u v := by
  obtain ⟨xs, hp, -⟩ := h.passage
  obtain ⟨ys, hq, -⟩ := h'.passage
  rw [(hp.trans hq).taking, takesAll_append] at ht
  rw [hp.taking, hq.taking]
  exact ht

namespace RingPoller

/-! ## Handing requests over -/

/-- What an answer to handing over the queued requests leads to. -/
def handed (p : RingPoller) : Fallible Nat → Code × RingPoller
  | .ok n => (Code.success, { p with ring := p.ring.taken n })
  | .error code => (code, p)

/-- Requests are handed over until the kernel is not interrupted, and that answer decides. -/
theorem shows_submit (p : RingPoller) :
    Shows (K := K) [] p.submit fun r xs => ∃ earlier reply t,
      xs = earlier ++ [⟨.ringSubmit p.ring.pending, reply, t⟩] ∧ interrupted reply = false ∧ r = p.handed reply := by
  let ask : Sys K (Fallible Nat) := call (.ringSubmit p.ring.pending)
  have hask : ∀ earlier, Shows earlier ask fun reply xs =>
      ∃ before t, xs = before ++ [⟨.ringSubmit p.ring.pending, reply, t⟩] := by
    intro earlier
    exact .call fun _ t => ⟨earlier, t, rfl⟩
  have hless : ∀ w : World K, interrupted (ask w).1 = true → (ask w).2.patience < w.patience := by
    intro w hw
    exact patience_call_lt (c := .ringSubmit p.ring.pending) hw
  have hinsist := Shows.insist hless (hask []) fun _ xs _ _ => hask xs
  refine hinsist.bind ?_
  rintro reply _ ⟨⟨earlier, t, rfl⟩, hi⟩
  cases reply with
  | error code => exact .note_bind (.pure ⟨earlier, _, t, rfl, hi, rfl⟩)
  | ok n => exact .pure ⟨earlier, _, t, rfl, hi, rfl⟩

/-- The last exchange hands the requests over. If it leaves none of them behind, they are queued no more. -/
theorem submit_last (p : RingPoller) (w : World K) : ∃ earlier reply t,
    (p.submit w).2.trace = w.trace ++ earlier ++ [⟨.ringSubmit p.ring.pending, reply, t⟩] ∧
      (Exchange.leavesRequests ⟨.ringSubmit p.ring.pending, reply, t⟩ = false →
        (p.submit w).1 = (Code.success, { p with ring := { p.ring with pending := [] } })) := by
  obtain ⟨_, hp, earlier, reply, t, hxs, hi, hr⟩ := shows_submit p w
  rw [List.nil_append] at hxs
  subst hxs
  refine ⟨earlier, reply, t, by rw [hp.trace, List.append_assoc], ?_⟩
  intro hlast
  rw [hr]
  cases reply with
  | error code =>
    have hne : (code == Code.interrupted) = false := hi
    have hcode : (code != Code.interrupted) = false := hlast
    rw [bne, hne] at hcode
    cases hcode
  | ok n =>
    have hle : p.ring.pending.length ≤ n := by simpa [Exchange.leavesRequests] using hlast
    simp [handed, Ring.taken, List.drop_of_length_le hle]

/-- Requests that the kernel takes are queued no more. -/
theorem submit_of_taking {p : RingPoller} {w : World K} (h : Taking w (p.submit w).2) :
    (p.submit w).1 = (Code.success, { p with ring := { p.ring with pending := [] } }) := by
  obtain ⟨earlier, reply, t, htrace, hlast⟩ := submit_last p w
  unfold Taking at h
  rw [htrace, List.append_assoc, List.drop_left] at h
  exact hlast (h _ (List.mem_append_right _ (List.mem_singleton.2 rfl)))

/-- Where handing requests over fails, they all stay queued, and the error is what the kernel answered last. -/
theorem submit_of_failed {p : RingPoller} {w : World K} (h : (p.submit w).1.1 ≠ Code.success) :
    (p.submit w).1.2 = p ∧ ∃ earlier time,
      (p.submit w).2.trace = earlier ++ [⟨.ringSubmit p.ring.pending, .error (p.submit w).1.1, time⟩] := by
  obtain ⟨_, hp, earlier, reply, t, hxs, -, hr⟩ := shows_submit p w
  rw [List.nil_append] at hxs
  subst hxs
  rw [hr] at h ⊢
  cases reply with
  | ok n => exact absurd rfl h
  | error code => exact ⟨rfl, w.trace ++ earlier, t, by rw [hp.trace, List.append_assoc]; rfl⟩

theorem reaches_submit (p : RingPoller) (w : World K) : Reaches (fun _ => True) w (p.submit w).2 :=
  (built_submit (fun _ => trivial) p).confined w

theorem reaches_reserve (p : RingPoller) (w : World K) : Reaches (fun _ => True) w (p.reserve w).2 :=
  (built_reserve (fun _ => trivial) p).confined w

/-- A ring that can hold a request at all has room for one when it is asked for, if the kernel takes what it is
handed. -/
theorem grants_of_taking {p : RingPoller} {w : World K} (hc : 0 < p.ring.capacity) (h : Taking w (p.reserve w).2) :
    p.grants w = true := by
  unfold grants
  simp only [reserve, Sys.ite_apply, Sys.pure_apply] at h ⊢
  split
  · rename_i hr
    exact hr
  · rename_i hr
    rw [if_neg hr] at h
    show (p.submit w).1.2.ring.hasRoom = true
    rw [submit_of_taking h]
    simp [Ring.hasRoom, hc]

end RingPoller

end Vigil
