import Mathlib.Data.List.Basic
import Mathlib.Data.PEquiv
import Vigil.CompletionPort.Status

/-!
# Two families that agree

Statuses and errors have codes that stand for each other (`counterparts`). The conversions read this one table in both
directions (`NtStatus.toError?_eq_some_iff`, `WinError.toStatus?_eq_some_iff`), so they are partial inverses (`codes`).
A code without a counterpart becomes the other family's code for failures that it cannot name, which has no counterpart
either; what becomes of a code on its way there and back follows from that alone (`there_and_back`, `back_again`), and
so does its class (`class_kept`). Of the classes, only failure is given to codes outside of the table
(`NtStatus.kind_eq_failed`, `WinError.kind_eq_failed`). Together, the families agree on every code (`families_agree`).
-/

namespace Vigil.CompletionPort

/-- The statuses and errors that stand for each other. -/
def counterparts : List (NtStatus × WinError) :=
  [(NtStatus.success, WinError.success), (NtStatus.pending, WinError.pending), (NtStatus.cancelled, WinError.aborted),
    (NtStatus.notFound, WinError.notFound), (NtStatus.invalidHandle, WinError.invalidHandle),
    (NtStatus.pipeBroken, WinError.brokenPipe)]

/-! ## Conversions -/

theorem NtStatus.toError?_eq_some_iff {s : NtStatus} {e : WinError} :
    s.toError? = some e ↔ (s, e) ∈ counterparts := by
  constructor
  · intro h
    unfold NtStatus.toError? at h
    split_ifs at h <;> simp_all [counterparts]
  · have hall : counterparts.Forall fun c => NtStatus.toError? c.1 = some c.2 := by decide
    exact List.forall_iff_forall_mem.1 hall (s, e)

theorem WinError.toStatus?_eq_some_iff {s : NtStatus} {e : WinError} :
    e.toStatus? = some s ↔ (s, e) ∈ counterparts := by
  constructor
  · intro h
    unfold WinError.toStatus? at h
    split_ifs at h <;> simp_all [counterparts]
  · have hall : counterparts.Forall fun c => WinError.toStatus? c.2 = some c.1 := by decide
    exact List.forall_iff_forall_mem.1 hall (s, e)

/-- The statuses and errors that have a counterpart, with their conversions. -/
def codes : NtStatus ≃. WinError where
  toFun := NtStatus.toError?
  invFun := WinError.toStatus?
  inv _ _ := WinError.toStatus?_eq_some_iff.trans NtStatus.toError?_eq_some_iff.symm

theorem NtStatus.toError_eq (s : NtStatus) : s.toError = (codes s).getD WinError.unnamed := rfl

theorem WinError.toStatus_eq (e : WinError) : e.toStatus = (codes.symm e).getD NtStatus.unexpected := rfl

theorem isSome_codes {s : NtStatus} : (codes s).isSome ↔ s ∈ counterparts.map Prod.fst := by
  rw [Option.isSome_iff_exists, List.mem_map]
  constructor
  · rintro ⟨e, he⟩
    exact ⟨(s, e), NtStatus.toError?_eq_some_iff.1 he, rfl⟩
  · rintro ⟨⟨_, e⟩, he, rfl⟩
    exact ⟨e, NtStatus.toError?_eq_some_iff.2 he⟩

theorem isSome_codes_symm {e : WinError} : (codes.symm e).isSome ↔ e ∈ counterparts.map Prod.snd := by
  rw [Option.isSome_iff_exists, List.mem_map]
  constructor
  · rintro ⟨s, hs⟩
    exact ⟨(s, e), WinError.toStatus?_eq_some_iff.1 hs, rfl⟩
  · rintro ⟨⟨s, _⟩, hs, rfl⟩
    exact ⟨s, WinError.toStatus?_eq_some_iff.2 hs⟩

/-! ## There and back -/

section Detour

variable {α β : Type} (f : α ≃. β) {a₀ : α} {b₀ : β}

/-- What has a counterpart comes back. All else goes to a code without one, and comes back as such a code. -/
theorem there_and_back (hb : f.symm b₀ = none) (a : α) :
    (f.symm ((f a).getD b₀)).getD a₀ = if (f a).isSome then a else a₀ := by
  cases h : f a with
  | none =>
    rw [Option.getD_none, hb]
    rfl
  | some b =>
    rw [Option.getD_some, f.eq_some_iff.2 h]
    rfl

/-- What came back once comes back as it is. -/
theorem back_again (ha : f a₀ = none) (hb : f.symm b₀ = none) (a : α) :
    let back := (f.symm ((f a).getD b₀)).getD a₀
    (f.symm ((f back).getD b₀)).getD a₀ = back := by
  intro back
  have hback : back = if (f a).isSome then a else a₀ := there_and_back f hb a
  rw [there_and_back f hb, hback]
  cases h : (f a).isSome with
  | false =>
    have hnone : (f a₀).isSome = false := by rw [ha]; rfl
    simp [hnone]
  | true => simp [h]

end Detour

/-! ## Classes -/

theorem kind_eq_of_mem_counterparts {s : NtStatus} {e : WinError} (h : (s, e) ∈ counterparts) : s.kind = e.kind := by
  have hall : counterparts.Forall fun c => NtStatus.kind c.1 = WinError.kind c.2 := by decide
  exact List.forall_iff_forall_mem.1 hall (s, e) h

theorem NtStatus.kind_eq_failed {s : NtStatus} (h : s.toError? = none) : s.kind = .failed := by
  unfold NtStatus.kind
  split_ifs with hsuccess hpending hcancelled hnotFound
  · exact absurd h (by rw [hsuccess]; decide)
  · exact absurd h (by rw [hpending]; decide)
  · exact absurd h (by rw [hcancelled]; decide)
  · exact absurd h (by rw [hnotFound]; decide)
  · rfl

theorem WinError.kind_eq_failed {e : WinError} (h : e.toStatus? = none) : e.kind = .failed := by
  unfold WinError.kind
  split_ifs with hsuccess hpending haborted hnotFound
  · exact absurd h (by rw [hsuccess]; decide)
  · exact absurd h (by rw [hpending]; decide)
  · exact absurd h (by rw [haborted]; decide)
  · exact absurd h (by rw [hnotFound]; decide)
  · rfl

/-- A code keeps its class if counterparts have the same one, and what has none fails, as what it becomes does. -/
theorem class_kept {α β : Type} {f : α ≃. β} {k : α → IoStatus} {l : β → IoStatus} {b₀ : β}
    (hpairs : ∀ {a b}, f a = some b → k a = l b) (hnone : ∀ {a}, f a = none → k a = .failed) (hb : l b₀ = .failed)
    (a : α) : l ((f a).getD b₀) = k a := by
  cases h : f a with
  | none => rw [Option.getD_none, hb, hnone h]
  | some b => rw [Option.getD_some, hpairs h]

theorem NtStatus.kind_toError (s : NtStatus) : s.toError.kind = s.kind :=
  class_kept (f := codes) (fun h => kind_eq_of_mem_counterparts (NtStatus.toError?_eq_some_iff.1 h))
    NtStatus.kind_eq_failed rfl s

theorem WinError.kind_toStatus (e : WinError) : e.toStatus.kind = e.kind :=
  class_kept (f := codes.symm) (fun h => (kind_eq_of_mem_counterparts (WinError.toStatus?_eq_some_iff.1 h)).symm)
    WinError.kind_eq_failed rfl e

/-- **Two families.** A code of either family has the class of what it is converted to. Counterparts are converted to
each other. Any other status becomes the error for what errors cannot name, and any other error the status for what
statuses cannot name; they are failures before and after that. So a code comes back as itself if it has a counterpart,
and as what its own family cannot name otherwise, and nothing changes when it takes that way again. -/
theorem families_agree :
    (∀ s : NtStatus, s.kind = s.toError.kind) ∧ (∀ e : WinError, e.kind = e.toStatus.kind) ∧
    (∀ c ∈ counterparts, NtStatus.toError c.1 = c.2 ∧ WinError.toStatus c.2 = c.1) ∧
    (∀ s : NtStatus, s.toError.toStatus = if s ∈ counterparts.map Prod.fst then s else NtStatus.unexpected) ∧
    (∀ e : WinError, e.toStatus.toError = if e ∈ counterparts.map Prod.snd then e else WinError.unnamed) ∧
    (∀ s : NtStatus, s.toError.toStatus.toError.toStatus = s.toError.toStatus) ∧
    (∀ e : WinError, e.toStatus.toError.toStatus.toError = e.toStatus.toError) ∧
    (∀ s : NtStatus, s ∉ counterparts.map Prod.fst →
      s.toError = WinError.unnamed ∧ s.kind = .failed ∧ s.toError.kind = .failed) ∧
    ∀ e : WinError, e ∉ counterparts.map Prod.snd →
      e.toStatus = NtStatus.unexpected ∧ e.kind = .failed ∧ e.toStatus.kind = .failed := by
  have hunexpected : codes NtStatus.unexpected = none := rfl
  have hunnamed : codes.symm WinError.unnamed = none := rfl
  refine ⟨fun s => s.kind_toError.symm, fun e => e.kind_toStatus.symm, fun c hc => ⟨?_, ?_⟩, fun s => ?_, fun e => ?_,
    fun s => ?_, fun e => ?_, fun s hs => ?_, fun e he => ?_⟩
  · rw [NtStatus.toError, NtStatus.toError?_eq_some_iff.2 hc, Option.getD_some]
  · rw [WinError.toStatus, WinError.toStatus?_eq_some_iff.2 hc, Option.getD_some]
  · simp only [← isSome_codes, NtStatus.toError_eq, WinError.toStatus_eq]
    exact there_and_back codes hunnamed s
  · simp only [← isSome_codes_symm, NtStatus.toError_eq, WinError.toStatus_eq]
    exact there_and_back codes.symm hunexpected e
  · simp only [NtStatus.toError_eq, WinError.toStatus_eq]
    exact back_again codes hunexpected hunnamed s
  · simp only [NtStatus.toError_eq, WinError.toStatus_eq]
    have hback := back_again codes.symm hunnamed hunexpected e
    rwa [PEquiv.symm_symm] at hback
  · have hnone : s.toError? = none := Option.not_isSome_iff_eq_none.1 fun h => hs (isSome_codes.1 h)
    have hfailed : s.kind = .failed := NtStatus.kind_eq_failed hnone
    refine ⟨?_, hfailed, s.kind_toError.trans hfailed⟩
    rw [NtStatus.toError, hnone, Option.getD_none]
  · have hnone : e.toStatus? = none := Option.not_isSome_iff_eq_none.1 fun h => he (isSome_codes_symm.1 h)
    have hfailed : e.kind = .failed := WinError.kind_eq_failed hnone
    refine ⟨?_, hfailed, e.kind_toStatus.trans hfailed⟩
    rw [WinError.toStatus, hnone, Option.getD_none]

/-- A status that only warns, and the error for a wait without an answer, have no counterparts. -/
theorem families_agree_unnamed :
    let s : NtStatus := -2147483643
    s ∉ counterparts.map Prod.fst ∧ WinError.timeout ∉ counterparts.map Prod.snd ∧
      s.toError = WinError.unnamed ∧ s.toError.toStatus = NtStatus.unexpected ∧
      WinError.timeout.toStatus = NtStatus.unexpected ∧ WinError.timeout.toStatus.toError = WinError.unnamed := by
  intro s
  have hs : s ∉ counterparts.map Prod.fst := by decide
  have he : WinError.timeout ∉ counterparts.map Prod.snd := by decide
  obtain ⟨-, -, -, hstatus, herror, -, -, hs', he'⟩ := families_agree
  exact ⟨hs, he, (hs' s hs).1, (hstatus s).trans (if_neg hs), (he' _ he).1, (herror _).trans (if_neg he)⟩

end Vigil.CompletionPort
