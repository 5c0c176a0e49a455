import Vigil.Proofs.Debugging.Backends
import Vigil.Proofs.Debugging.Oblivious
import Vigil.Replay

/-!
# Debugging does not show

Two environments that differ in the variables of debugging only give two sessions that cannot be told apart but by
their logs. Where one process tells something, the other keeps silent; what is written may leave any number behind as
the last error, and the two processes may have come from different pasts.

- Every command is put together from calls, notes, the clock and the patience (`Session.built_perform`), so what a
  session goes through is the same in two worlds with one kernel (`Session.observeAll_apply`);
- a `transcript` is the commands of a process, with the environment read once, before the first of them. What there is
  to see of each command is its outcome, its calls, and what the process' own settings make of its notes
  (`Course.seen`);
- `debugging_unobservable`: two transcripts show the same courses, and where debugging is off the log is empty.
-/

namespace Vigil

variable {K : Kernel}

/-! ## Commands -/

namespace Session

theorem built_destroy (s : Session) : Built (K := K) (fun _ => True) s.destroy := by
  unfold destroy
  split
  · exact (Backend.built_drop _).bind fun _ => .pure _
  · exact .pure s

theorem built_performOn (s : Session) (b : Backend) (c : Command) :
    Built (K := K) (fun _ => True) (s.performOn b c) := by
  cases c with
  | create name => exact .pure _
  | createRaw name => exact .pure _
  | init => exact (b.built_init _).bind fun _ => .pure _
  | destroy => exact s.built_destroy.bind fun _ => .pure _
  | info => exact .pure _
  | add fd e mode => exact (b.built_add fd e mode).bind fun _ => .pure _
  | modify fd e mode => exact (b.built_modify fd e mode).bind fun _ => .pure _
  | remove fd => exact (b.built_remove fd).bind fun _ => .pure _
  | wake => exact b.built_wake.bind fun _ => .pure _
  | wait timeout => exact (b.built_wait _ timeout).bind fun _ => .pure _
  | clear => exact .pure _
  | submit changes => exact (b.built_submit changes).bind fun _ => .pure _
  | submitAs name changes => exact .ite ((b.built_submit changes).bind fun _ => .pure _) (.pure _)

theorem built_perform (s : Session) (c : Command) : Built (K := K) (fun _ => True) (s.perform c) := by
  have hbackend (hc : c.needsBackend = true) : Built (K := K) (fun _ => True) (s.perform c) := by
    cases hb : s.backend with
    | some b => exact perform_of_some hb hc ▸ s.built_performOn b c
    | none => exact perform_of_none hb hc ▸ .pure _
  cases c with
  | create name =>
    refine s.built_destroy.bind fun s => ?_
    cases name with
    | some name => exact (Backend.built_selectNamed _ name).bind fun _ => .pure _
    | none => exact (Backend.built_select _ _).bind fun _ => .pure _
  | createRaw name => exact s.built_destroy.bind fun _ => .pure _
  | clear => exact .pure _
  | _ => exact hbackend rfl

end Session

/-- What there is to see of a command that came to an outcome in some course, under the settings of a log. -/
def Course.seen (l : Logging) (x : Outcome × Course K) : Observed Outcome :=
  ⟨x.1, x.2.exchanges, l.render (notesOf x.2.deeds)⟩

/-- Commands come to outcomes in courses that follow from the state of the kernel. -/
theorem Session.observeAll_apply (cs : List Command) : ∀ (s : Session) (k : K.State),
    ∃ (xs : List (Outcome × Course K)) (t : Session) (c : Course K), ∀ w : World K, w.kernel = k →
      s.observeAll cs w = ((xs.map (Course.seen w.process.logging), t), w.after c) := by
  induction cs with
  | nil =>
    refine fun s k => ⟨[], s, { kernel := k }, fun w hw => ?_⟩
    subst hw
    rw [World.after_nil]
    rfl
  | cons command cs ih =>
    intro s k
    obtain ⟨⟨o, s'⟩, c, hone⟩ := (s.built_perform command).oblivious.observe_apply k
    obtain ⟨xs, t, d, hrest⟩ := ih s' c.kernel
    refine ⟨(o, c) :: xs, t, c.append d, fun w hw => ?_⟩
    have hrest := hrest (w.after c) rfl
    rw [show (w.after c).process.logging = w.process.logging from Process.logging_after _ _] at hrest
    unfold observeAll
    simp only [Sys.bind_apply, hone w hw, hrest, World.after_append]
    rfl

/-! ## Transcripts -/

/-- The variables that decide whether and how a log is written. -/
def debugVariables : List String := ["READYQ_DEBUG", "READYQ_DEBUG_INDENT"]

/-- Environments that differ in the variables of debugging only ask for the same session. -/
theorem ofConfig_congr {env₁ env₂ : Environment} (h : ∀ name ∉ debugVariables, env₁ name = env₂ name)
    (build : Build) (capacity : Nat) :
    Session.ofConfig build capacity (.ofEnvironment env₁) = Session.ofConfig build capacity (.ofEnvironment env₂) := by
  have hbackend : env₁ "READYQ_BACKEND" = env₂ "READYQ_BACKEND" := h _ (by decide)
  have hwake : env₁ "READYQ_NOTIFY" = env₂ "READYQ_NOTIFY" := h _ (by decide)
  simp only [Session.ofConfig, Config.ofEnvironment, hbackend, hwake]

/-- Two runs that only their logs tell apart. -/
structure Alike (l₁ l₂ : Logging) (w₁ w₂ : World K) (x₁ x₂ : (List (Observed Outcome) × Session) × World K) :
    Prop where
  outcomes : x₁.1.1.map (·.value) = x₂.1.1.map (·.value)
  exchanges : x₁.1.1.map (·.exchanges) = x₂.1.1.map (·.exchanges)
  session : x₁.1.2 = x₂.1.2
  kernel : x₁.2.kernel = x₂.2.kernel
  trace : ∃ xs, x₁.2.trace = w₁.trace ++ xs ∧ x₂.2.trace = w₂.trace ++ xs
  /-- The logs are two ways to write the same notes. -/
  logs : ∃ notes : List (List Note),
    x₁.1.1.map (·.log) = notes.map l₁.render ∧ x₂.1.1.map (·.log) = notes.map l₂.render

/-- What is seen of the same courses is alike. -/
theorem alike_seen (l₁ l₂ : Logging) (w₁ w₂ : World K) (xs : List (Outcome × Course K)) (s : Session) (c : Course K) :
    Alike l₁ l₂ w₁ w₂ ((xs.map (Course.seen l₁), s), (configure l₁ w₁).2.after c)
      ((xs.map (Course.seen l₂), s), (configure l₂ w₂).2.after c) where
  outcomes := by simp only [List.map_map, Function.comp_def, Course.seen]
  exchanges := by simp only [List.map_map, Function.comp_def, Course.seen]
  session := rfl
  kernel := rfl
  trace := ⟨c.exchanges, rfl, rfl⟩
  logs := ⟨xs.map fun x => notesOf x.2.deeds, by simp only [List.map_map, Function.comp_def, Course.seen],
    by simp only [List.map_map, Function.comp_def, Course.seen]⟩

/-- **Debugging is unobservable.** Let two environments differ in the variables of debugging only, and let two worlds
have one kernel. What was called and told in them before, the number of the last error, and what a written line makes of
it may all be different. Any commands have the same outcomes in both, make the same calls in the same order, get the
same answers and leave the same session and the same kernel; only the logs differ, and where debugging is off each of
them is empty. -/
theorem debugging_unobservable (build : Build) (capacity : Nat) (thread : UInt64) (cs : List Command)
    {env₁ env₂ : Environment} (henv : ∀ name ∉ debugVariables, env₁ name = env₂ name) {w₁ w₂ : World K}
    (hkernel : w₁.kernel = w₂.kernel) :
    let x₁ := transcript build capacity env₁ thread cs w₁
    let x₂ := transcript build capacity env₂ thread cs w₂
    Alike ((Config.ofEnvironment env₁).logging thread) ((Config.ofEnvironment env₂).logging thread) w₁ w₂ x₁ x₂ ∧
      Config.complaint env₁ = Config.complaint env₂ ∧
      (Config.debugOf (env₁ "READYQ_DEBUG") = false → ∀ x ∈ x₁.1.1, x.log = "") := by
  let l₁ := (Config.ofEnvironment env₁).logging thread
  let l₂ := (Config.ofEnvironment env₂).logging thread
  obtain ⟨xs, t, c, h⟩ :=
    Session.observeAll_apply cs (Session.ofConfig build capacity (.ofEnvironment env₁)) w₁.kernel
  have h₁ : transcript build capacity env₁ thread cs w₁ = _ := h (configure l₁ w₁).2 rfl
  have h₂ : transcript build capacity env₂ thread cs w₂ = _ := ofConfig_congr henv build capacity ▸
    h (configure l₂ w₂).2 hkernel.symm
  have hwake : env₁ "READYQ_NOTIFY" = env₂ "READYQ_NOTIFY" := henv _ (by decide)
  intro x₁ x₂
  refine ⟨?_, ?_, fun hoff x hx => ?_⟩
  · rw [show x₁ = _ from h₁, show x₂ = _ from h₂]
    exact alike_seen l₁ l₂ w₁ w₂ xs t c
  · simp only [Config.complaint, hwake]
  · rw [show x₁ = _ from h₁] at hx
    obtain ⟨y, -, rfl⟩ := List.mem_map.1 hx
    exact Logging.render_of_disabled hoff _

/-- The code that a wait came to. -/
def Outcome.waitCode? : Outcome → Option Code
  | .waited answer _ => some answer
  | _ => none

/-- A wait fails in a process that keeps silent, and in one whose writing leaves an error of its own each time. -/
theorem debugging_unobservable_failing :
    let silent : Environment := fun _ => none
    let loud : Environment := fun name => if name ∈ debugVariables then some "1" else none
    let replay : Replay := { script := [(.epollWait, { error := some Code.invalid })] }
    let w₁ : World Replay.kernel := Replay.world replay
    let w₂ : World Replay.kernel := { w₁ with process := { errno := Code.busy, disturb := fun _ _ => Code.brokenPipe } }
    let cs : List Command := [.create none, .add 5 (.readableOnly 7) .level, .wait none, .destroy]
    let x₁ := transcript Platform.linux.build 8 silent 1 cs w₁
    let x₂ := transcript Platform.linux.build 8 loud 1 cs w₂
    (∀ name ∉ debugVariables, silent name = loud name) ∧ w₁.kernel = w₂.kernel ∧
      Config.debugOf (silent "READYQ_DEBUG") = false ∧
      Alike ((Config.ofEnvironment silent).logging 1) ((Config.ofEnvironment loud).logging 1) w₁ w₂ x₁ x₂ ∧
      Config.complaint silent = Config.complaint loud ∧ (∀ x ∈ x₁.1.1, x.log = "") ∧
      x₁.1.1.map (·.exchanges.length) = [3, 1, 1, 3] ∧
      x₂.1.1.map (·.value.waitCode?) = [none, none, some Code.invalid, none] ∧
      x₂.2.process.errno = Code.brokenPipe ∧
      (x₂.1.1.map (·.log))[2]? = some ("\t[thread 1] readyq(epoll): wait epoll_fd=100 timeout_ns=-1\n" ++
        "\t[thread 1] readyq(epoll): epoll_wait failed: 22 (Invalid argument)\n") := by
  intro silent loud replay w₁ w₂ cs x₁ x₂
  have henv : ∀ name ∉ debugVariables, silent name = loud name := fun name h => (if_neg h).symm
  have hkernel : w₁.kernel = w₂.kernel := rfl
  have hoff : Config.debugOf (silent "READYQ_DEBUG") = false := rfl
  have ⟨halike, hcomplaint, hsilent⟩ := debugging_unobservable Platform.linux.build 8 1 cs henv hkernel
  have hcalls : x₁.1.1.map (·.exchanges.length) = [3, 1, 1, 3] := by decide +kernel
  have hcodes : x₂.1.1.map (·.value.waitCode?) = [none, none, some Code.invalid, none] := by decide +kernel
  have herrno : x₂.2.process.errno = Code.brokenPipe := by decide +kernel
  have hline : (x₂.1.1.map (·.log))[2]? = some ("\t[thread 1] readyq(epoll): wait epoll_fd=100 timeout_ns=-1\n" ++
      "\t[thread 1] readyq(epoll): epoll_wait failed: 22 (Invalid argument)\n") := by decide +kernel
  with_reducible exact ⟨henv, hkernel, hoff, halike, hcomplaint, hsilent hoff, hcalls, hcodes, herrno, hline⟩

end Vigil
