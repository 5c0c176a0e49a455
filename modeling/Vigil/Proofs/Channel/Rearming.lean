import Vigil.Proofs.Channel.Latch

/-!
# Draining before arming

A channel is drained before it is armed again, so whatever other threads write in between is still there to fire
(`drain_then_rearm`).

- `Latch.OnlySignals`: all that other threads will do is to signal;
- `Latch.Since`: since a point of the log nothing was read, and the channel is filled just if something was written.
  It holds when a drain ends (`drained`), and is kept by signals and by the change that arms (`since_signal`,
  `since_rearming`).
-/

namespace Vigil.Latch

variable {v : Vessel}

/-! ## The log -/

theorem log_act (v : Vessel) (code : Code) (s : Latch) (c : Call) :
    (s.act v code c).2.log = s.log ++ [⟨c, (s.act v code c).1, 0⟩] := by
  cases c with
  | hostModify fd e mode =>
    simp only [act, serve]
    split <;> rfl
  | _ => rfl

theorem actAll_nil (v : Vessel) (s : Latch) : actAll v s [] = s := rfl

theorem log_actAll (v : Vessel) : ∀ (cs : List Call) (s : Latch), ∃ xs, (actAll v s cs).log = s.log ++ xs
  | [], s => ⟨[], (List.append_nil _).symm⟩
  | c :: cs, s => by
    obtain ⟨xs, h⟩ := log_actAll v cs (s.act v Code.success c).2
    refine ⟨⟨c, (s.act v Code.success c).1, 0⟩ :: xs, h.trans ?_⟩
    rw [log_act, List.append_assoc]
    rfl

/-- Since a point of the log nothing was read, and the channel is filled just if something was written. -/
def Since (log : List Exchange) (s : Latch) : Prop :=
  ∃ xs, s.log = log ++ xs ∧ (∀ x ∈ xs, x.isRead = false) ∧ (0 < s.level ↔ ∃ x ∈ xs, x.isWritten = true)

theorem since_empty {s : Latch} (h : s.level = 0) : Since s.log s :=
  ⟨[], (List.append_nil _).symm, (fun x hx => by cases hx), by simp [h]⟩

/-- A call that reads nothing, and fills the channel just if it writes something. -/
theorem since_act {log : List Exchange} {s : Latch} {code : Code} {c : Call} (h : Since log s)
    (hread : Exchange.isRead ⟨c, (s.act v code c).1, 0⟩ = false)
    (hlevel : 0 < (s.act v code c).2.level ↔ 0 < s.level ∨ Exchange.isWritten ⟨c, (s.act v code c).1, 0⟩ = true) :
    Since log (s.act v code c).2 := by
  obtain ⟨xs, hlog, hreads, hwritten⟩ := h
  refine ⟨xs ++ [⟨c, (s.act v code c).1, 0⟩], ?_, ?_, ?_⟩
  · rw [log_act, hlog, List.append_assoc]
  · exact List.forall_mem_append.2 ⟨hreads, List.forall_mem_singleton.2 hread⟩
  · rw [hlevel, hwritten]
    simp [or_and_right, exists_or]

theorem act_signaling (v : Vessel) (code : Code) (s : Latch) :
    (s.act v code v.channel.signaling).1 = (v.pour s.level).1 ∧
      (s.act v code v.channel.signaling).2.level = (v.pour s.level).2 := by
  rw [← v.write_signal]
  exact ⟨rfl, rfl⟩

/-- A signal is written, or refused because the channel is filled. -/
theorem since_signal {log : List Exchange} {s : Latch} (code : Code) (h : Since log s) :
    Since log (s.act v code v.channel.signaling).2 := by
  obtain ⟨hreply, hl⟩ := act_signaling v code s
  refine since_act h rfl ?_
  rw [hl]
  refine iff_of_true (v.level_pour_pos s.level) ?_
  rcases v.pour_cases s.level with ⟨n, hn⟩ | ⟨-, hpos⟩
  · right
    rw [hreply, hn]
    rfl
  · exact .inl hpos

theorem since_rearming {log : List Exchange} {s : Latch} (code : Code) (h : Since log s) :
    Since log (s.act v code v.channel.rearming).2 := by
  have hl : (s.act v code v.channel.rearming).2.level = s.level := by
    simp only [act, serve]
    split <;> rfl
  refine since_act h rfl ?_
  rw [hl]
  exact ⟨.inl, fun h => h.resolve_right Bool.false_ne_true⟩

/-! ## Signals of others -/

/-- All that other threads will do is to signal. -/
def OnlySignals (v : Vessel) (s : Latch) : Prop := ∀ b ∈ s.beats, ∀ c ∈ b.others, c = v.channel.signaling

instance (v : Vessel) (s : Latch) : Decidable (OnlySignals v s) :=
  inferInstanceAs (Decidable (∀ b ∈ s.beats, ∀ c ∈ b.others, c = v.channel.signaling))

theorem since_actAll {log : List Exchange} : ∀ {cs : List Call} {s : Latch},
    (∀ c ∈ cs, c = v.channel.signaling) → Since log s → Since log (actAll v s cs)
  | [], _, _, h => h
  | c :: cs, s, hcs, h => by
    obtain ⟨rfl, hrest⟩ := List.forall_mem_cons.1 hcs
    show Since log (actAll v (s.act v Code.success v.channel.signaling).2 cs)
    exact since_actAll hrest (since_signal Code.success h)

theorem watching_actAll : ∀ {cs : List Call} {s : Latch},
    (∀ c ∈ cs, c = v.channel.signaling) → (actAll v s cs).watching = s.watching
  | [], _, _ => rfl
  | c :: cs, s, hcs => by
    obtain ⟨rfl, hrest⟩ := List.forall_mem_cons.1 hcs
    show (actAll v (s.act v Code.success v.channel.signaling).2 cs).watching = s.watching
    exact watching_actAll hrest

/-- What is logged up to the answer to a read of a drain. If the drain ends with it, the read is logged last and leaves
nothing. -/
theorem answer_draining {s : Latch} (h : OnlySignals v s) :
    let r := s.answer v v.channel.draining
    OnlySignals v r.2 ∧ ∃ before, r.2.log = s.log ++ before ∧
      (v.channel.readAgain r.1 = false →
        (∃ front, before = front ++ [⟨v.channel.draining, r.1, 0⟩]) ∧ r.2.level = 0) := by
  have hact : ∀ (code : Code) (u : Latch), v.channel.readAgain (u.act v code v.channel.draining).1 = false →
      (u.act v code v.channel.draining).2.level = 0 := fun code u => v.level_read_eq_zero u.level
  unfold answer
  cases hs : s.beats with
  | nil => exact ⟨h, _, log_act v Code.success s _, fun hr => ⟨⟨[], rfl⟩, hact _ _ hr⟩⟩
  | cons b bs =>
    obtain ⟨xs, hxs⟩ := log_actAll v b.others { s with beats := bs }
    have hbeats := beats_actAll v b.others { s with beats := bs }
    dsimp only
    generalize actAll v { s with beats := bs } b.others = u at hxs hbeats
    have hu : OnlySignals v u := fun d hd => h d (by rw [hs]; rw [hbeats] at hd; exact List.mem_cons_of_mem _ hd)
    unfold attempt
    dsimp only
    split
    · exact ⟨hu, xs, hxs, fun hr => by cases hr⟩
    · refine ⟨fun d hd => hu d (by rwa [beats_act] at hd), xs ++ [⟨v.channel.draining, _, 0⟩], ?_,
        fun hr => ⟨⟨xs, rfl⟩, hact _ _ hr⟩⟩
      rw [log_act, hxs, List.append_assoc]

theorem answer_rearming {s : Latch} {log : List Exchange} (h : OnlySignals v s) (hs : Since log s) :
    Since log (s.answer v v.channel.rearming).2 ∧
      ((s.answer v v.channel.rearming).1 = Code.success →
        (s.answer v v.channel.rearming).2.watching = some (.readableOnly notifyKey, .oneshot)) := by
  have hact : ∀ (code : Code) (u : Latch), (u.act v code v.channel.rearming).1 = Code.success →
      (u.act v code v.channel.rearming).2.watching = some (.readableOnly notifyKey, .oneshot) := by
    intro code u hc
    have hc : code = Code.success := hc
    simp only [act, serve, hc, and_self, if_true]
  unfold answer
  cases hb : s.beats with
  | nil => exact ⟨since_rearming _ hs, hact _ _⟩
  | cons b bs =>
    have hothers : ∀ c ∈ b.others, c = v.channel.signaling := h b (by rw [hb]; exact List.mem_cons_self)
    have hu : Since log (actAll v { s with beats := bs } b.others) := since_actAll hothers hs
    exact ⟨since_rearming _ hu, hact _ _⟩

/-! ## Programs -/

/-- Some reads of a drain were made from one world to another, and answered with `r` in the end. -/
structure Drained (v : Vessel) (w : World (kernel v)) (r : Fallible Nat) (u : World (kernel v)) : Prop where
  signals : OnlySignals v (ofWorld u)
  reads : ∃ front, (∀ x ∈ front, x.call = v.channel.draining) ∧
    u.trace = w.trace ++ front ++ [⟨v.channel.draining, r, 0⟩]
  log : ∃ before, (ofWorld u).log = (ofWorld w).log ++ before ∧
    (v.channel.readAgain r = false →
      (∃ front, before = front ++ [⟨v.channel.draining, r, 0⟩]) ∧ (ofWorld u).level = 0)

theorem Drained.first {w : World (kernel v)} (h : OnlySignals v (ofWorld w)) :
    Drained v w (call v.channel.draining w).1 (call v.channel.draining w).2 := by
  obtain ⟨hsignals, hlog⟩ := answer_draining h
  exact ⟨hsignals, ⟨[], (fun x hx => by cases hx), by rw [List.append_nil]; rfl⟩, hlog⟩

theorem Drained.repeated {w u : World (kernel v)} {r : Fallible Nat} (h : Drained v w r u) :
    Drained v w (call v.channel.draining u).1 (call v.channel.draining u).2 := by
  obtain ⟨hsignals, ⟨front, hfront, htrace⟩, before, hlog, -⟩ := h
  obtain ⟨hsignals', before', hlog', hend⟩ := answer_draining hsignals
  refine ⟨hsignals', ⟨front ++ [⟨v.channel.draining, r, 0⟩], ?_, ?_⟩, before ++ before', ?_, fun hr => ?_⟩
  · exact List.forall_mem_append.2 ⟨hfront, List.forall_mem_singleton.2 rfl⟩
  · show u.trace ++ [_] = _
    rw [htrace, List.append_assoc w.trace]
    rfl
  · rw [← List.append_assoc, ← hlog]
    exact hlog'
  · obtain ⟨⟨last, rfl⟩, hl⟩ := hend hr
    exact ⟨⟨before ++ last, (List.append_assoc _ _ _).symm⟩, hl⟩

theorem drained (w : World (kernel v)) (h : OnlySignals v (ofWorld w)) :
    ∃ r, Drained v w r (v.channel.drain w).2 ∧ v.channel.readAgain r = false :=
  v.channel.drain_induct (.first h) fun _ _ hd _ => hd.repeated

/-- A write of one signal is interrupted, or leaves the channel filled. -/
theorem answer_signaling (s : Latch) :
    let r := s.answer v v.channel.signaling
    interrupted r.1 = true ∨
      ((∃ n, r.1 = .ok n) ∨ r.1 = .error Code.wouldBlock) ∧ 0 < r.2.level := by
  have hact : ∀ (code : Code) (u : Latch), let r := u.act v code v.channel.signaling
      ((∃ n, r.1 = .ok n) ∨ r.1 = .error Code.wouldBlock) ∧ 0 < r.2.level := by
    intro code u
    obtain ⟨hreply, hl⟩ := act_signaling v code u
    dsimp only
    rw [hreply, hl]
    exact ⟨(v.pour_cases u.level).imp id And.left, v.level_pour_pos u.level⟩
  unfold answer
  cases s.beats with
  | nil => exact .inr (hact _ _)
  | cons b bs =>
    dsimp only
    unfold attempt
    dsimp only
    split
    · exact .inl rfl
    · exact .inr (hact _ _)

theorem wake_fills (w : World (kernel v)) :
    (v.channel.wake w).1 = Code.success ∧ 0 < (ofWorld (v.channel.wake w).2).level := by
  let inv (r : Fallible Nat) (u : World (kernel v)) : Prop :=
    interrupted r = true ∨ ((∃ n, r = .ok n) ∨ r = .error Code.wouldBlock) ∧ 0 < (ofWorld u).level
  have signaled : ∀ u, inv (call v.channel.signaling u).1 (call v.channel.signaling u).2 :=
    fun u => answer_signaling (ofWorld u)
  obtain ⟨r, h, hi, hcode⟩ := v.channel.wake_induct (signaled w) fun _ u _ _ => signaled u
  rw [hcode]
  rcases h with h | ⟨⟨n, rfl⟩ | rfl, hl⟩
  · rw [h] at hi
    cases hi
  · exact ⟨rfl, hl⟩
  · exact ⟨rfl, hl⟩

/-- **Draining before arming.** A wake-up succeeds, and leaves its channel filled. While other threads only signal, a
channel is watched again by reads that drain it, and one change after them, whose answer is the result. If that succeeds
then, whatever signals follow, the channel is watched for one wake-up, and it is filled just if something was written
after the last of the reads. -/
theorem drain_then_rearm (v : Vessel) (w : World (kernel v)) :
    ((v.channel.wake w).1 = Code.success ∧ 0 < (ofWorld (v.channel.wake w).2).level) ∧
    (OnlySignals v (ofWorld w) →
      let r := v.channel.reattach (Registrar.host _) w
      ∃ front last, (∀ x ∈ front ++ [last], x.call = v.channel.draining) ∧
        r.2.trace = w.trace ++ front ++ [last, ⟨v.channel.rearming, r.1, 0⟩] ∧
        (r.1 = Code.success → ∀ later : Nat,
          let s := actAll v (ofWorld r.2) (List.replicate later v.channel.signaling)
          s.watching = some (.readableOnly notifyKey, .oneshot) ∧
          ∃ before after, s.log = (ofWorld w).log ++ before ++ last :: after ∧
            (∀ x ∈ after, x.isRead = false) ∧ (0 < s.level ↔ ∃ x ∈ after, x.isWritten = true))) := by
  refine ⟨wake_fills w, fun h => ?_⟩
  intro r
  obtain ⟨a, ⟨hsignals, ⟨front, hfront, htrace⟩, before, hlog, hend⟩, ha⟩ := drained w h
  obtain ⟨⟨start, rfl⟩, hl⟩ := hend ha
  obtain ⟨hsince, hwatching⟩ := answer_rearming hsignals (since_empty hl)
  refine ⟨front, ⟨v.channel.draining, a, 0⟩, ?_, ?_, fun hr later => ?_⟩
  · exact List.forall_mem_append.2 ⟨hfront, List.forall_mem_singleton.2 rfl⟩
  · show (v.channel.drain w).2.trace ++ [_] = _
    rw [htrace, List.append_assoc _ [_]]
    rfl
  · have hlater : ∀ c ∈ List.replicate later v.channel.signaling, c = v.channel.signaling :=
      fun c hc => List.eq_of_mem_replicate hc
    obtain ⟨after, hafter, hread, hlevel⟩ := since_actAll hlater hsince
    refine ⟨(watching_actAll hlater).trans (hwatching hr), start, after, ?_, hread, hlevel⟩
    rw [hlog, ← List.append_assoc, List.append_assoc _ [_]] at hafter
    exact hafter

/-- A full channel, an interrupted read, and a signal of others before each call but the fourth: the last one comes
after the last read, so the channel is armed and filled. -/
theorem drain_then_rearm_contended :
    let v : Vessel := { channel := .pipe 5 6, capacity := 1, capacity_pos := Nat.one_pos }
    let signal : Beat := { others := [v.channel.signaling] }
    let w : World (kernel v) :=
      { kernel := { level := 1, beats := [{ signal with interrupted := true }, signal, signal, {}, signal] } }
    let r := v.channel.reattach (Registrar.host _) w
    OnlySignals v (ofWorld w) ∧ r.1 = Code.success ∧ r.2.trace.length = 5 ∧
      (ofWorld r.2).watching = some (.readableOnly notifyKey, .oneshot) ∧
      ∃ before last after, (ofWorld r.2).log = before ++ last :: after ∧ last.call = v.channel.draining ∧
        ∃ x ∈ after, x.isWritten = true := by
  intro v signal w r
  have hs : OnlySignals v (ofWorld w) := by decide +kernel
  have hr : r.1 = Code.success := by decide +kernel
  obtain ⟨front, last, hreads, -, h⟩ := (drain_then_rearm v w).2 hs
  obtain ⟨hwatching, before, after, hlog, -, hlevel⟩ := h hr 0
  rw [List.replicate_zero, actAll_nil] at hwatching hlog hlevel
  have hfilled : 0 < (ofWorld r.2).level := by decide +kernel
  exact ⟨hs, hr, by decide +kernel, hwatching, _, last, after, hlog,
    hreads last (List.mem_append_right _ List.mem_cons_self), hlevel.1 hfilled⟩

end Vigil.Latch
