import Vigil.Backend

/-!
# Sessions

A `Session` owns at most one backend, and one event buffer that every wait fills. `Session.perform` carries out one
command; `observe` sets apart what a program adds to the trace and to the log. A `transcript` is what there is to see of
a process: it reads its environment once, before anything is told, and carries out commands.
-/

namespace Vigil

variable {K : Kernel}

/-! ## Observation -/

/-- What a program returned, asked of the kernel and wrote. -/
structure Observed (α : Type) where
  value : α
  exchanges : List Exchange
  log : String

/-- Runs a program, and sets apart what it asked of the kernel and what it wrote. -/
def observe {α : Type} (p : Sys K α) : Sys K (Observed α) := fun w =>
  let (a, w') := p w
  (⟨a, w'.trace.drop w.trace.length, String.join (w'.process.lines.drop w.process.lines.length)⟩, w')

/-! ## Commands -/

/-- What a session can be asked to do. -/
inductive Command where
  /-- Give up the backend, and select a new one, by name if there is one. -/
  | create (name : Option String)
  /-- Give up the backend, and take a new one that is not initialised. -/
  | createRaw (name : String)
  | init
  | destroy
  | info
  | add (fd : Descriptor) (event : Event) (mode : Mode)
  | modify (fd : Descriptor) (event : Event) (mode : Mode)
  | remove (fd : Descriptor)
  | wake
  | wait (timeout : Timeout)
  | clear
  /-- Apply filter changes. -/
  | submit (changes : List Kevent)
  /-- Apply filter changes to a backend of some name. -/
  | submitAs (name : String) (changes : List Kevent)
  deriving DecidableEq

/-- Whether a command is for the backend that there is. -/
def Command.needsBackend : Command → Bool
  | create _ => false
  | createRaw _ => false
  | clear => false
  | _ => true

/-- What a command leads to. -/
inductive Outcome where
  | created (kind : Option Kind)
  | code (code : Code)
  | done
  | info (kind : Kind) (fd : Descriptor)
  | waited (code : Code) (buffer : Buffer)
  | cleared (buffer : Buffer)
  /-- There is no backend to ask. -/
  | skipped

/-- What backends are made from, a place for one of them, and a buffer. -/
structure Session where
  setup : Setup
  preferred : String := ""
  backend : Option Backend := none
  buffer : Buffer := Buffer.empty

namespace Session

/-- The session of a build under a configuration, with the capacity of its rings. -/
def ofConfig (build : Build) (capacity : Nat) (c : Config) : Session where
  setup := ⟨build, c.wake, capacity⟩
  preferred := c.backend

/-- Gives up the backend, if there is one. -/
def destroy (s : Session) : Sys K Session := do
  match s.backend with
  | some b =>
    b.drop
    pure { s with backend := none }
  | none => pure s

/-- Puts a new backend in place of the one that was given up. -/
def replace (s : Session) (b : Option Backend) : Outcome × Session :=
  (.created (b.map Backend.kind), { s with backend := b })

/-- Puts back a backend that answered with a code. -/
def answer (s : Session) (r : Code × Backend) : Outcome × Session := (.code r.1, { s with backend := some r.2 })

/-- Carries out a command that needs a backend. -/
def performOn (s : Session) (b : Backend) : Command → Sys K (Outcome × Session)
  | .init => do pure (s.answer (← b.init s.setup))
  | .destroy => do pure (.done, ← s.destroy)
  | .info => pure (.info b.kind b.fd, s)
  | .add fd e mode => do pure (s.answer (← b.add fd e mode))
  | .modify fd e mode => do pure (s.answer (← b.modify fd e mode))
  | .remove fd => do pure (s.answer (← b.remove fd))
  | .wake => do pure (.done, { s with backend := some (← b.wake) })
  | .wait timeout => do
    let (code, b, buffer) ← b.wait s.buffer timeout
    pure (.waited code buffer, { s with backend := some b, buffer := buffer })
  | .submit changes => do pure (.code (← b.submit changes), s)
  | .submitAs name changes => do
    if name = Kind.kqueue.name then
      pure (.code (← b.submit changes), s)
    else
      pure (.code Code.invalid, s)
  | _ => pure (.done, s)

/-- Carries out a command. -/
def perform (s : Session) : Command → Sys K (Outcome × Session)
  | .create name => do
    let s ← s.destroy
    let b ← match name with
      | some name => Backend.selectNamed s.setup name
      | none => Backend.select s.setup s.preferred
    pure (s.replace b)
  | .createRaw name => do
    let s ← s.destroy
    pure (s.replace ((s.setup.build.find? name).map (Backend.ofKind s.setup)))
  | .clear =>
    let buffer := s.buffer.clear
    pure (.cleared buffer, { s with buffer := buffer })
  | c =>
    match s.backend with
    | some b => s.performOn b c
    | none => pure (.skipped, s)

theorem perform_of_some {s : Session} {b : Backend} (hb : s.backend = some b) {c : Command}
    (hc : c.needsBackend = true) : (s.perform c : Sys K (Outcome × Session)) = s.performOn b c := by
  cases c with
  | create name => cases hc
  | createRaw name => cases hc
  | clear => cases hc
  | _ => simp only [perform, hb]

theorem perform_of_none {s : Session} (hb : s.backend = none) {c : Command} (hc : c.needsBackend = true) :
    (s.perform c : Sys K (Outcome × Session)) = pure (.skipped, s) := by
  cases c with
  | create name => cases hc
  | createRaw name => cases hc
  | clear => cases hc
  | _ => simp only [perform, hb]

/-- Carries out commands in order. -/
def performAll (s : Session) : List Command → Sys K (List Outcome × Session)
  | [] => pure ([], s)
  | c :: cs => do
    let (o, s) ← s.perform c
    let (os, s) ← s.performAll cs
    pure (o :: os, s)

/-- Carries out commands in order, and observes each of them. -/
def observeAll (s : Session) : List Command → Sys K (List (Observed Outcome) × Session)
  | [] => pure ([], s)
  | c :: cs => do
    let o ← observe (s.perform c)
    let (os, s) ← o.value.2.observeAll cs
    pure ({ o with value := o.value.1 } :: os, s)

end Session

/-! ## Transcripts -/

/-- Says how the process is to write its log. -/
def configure (l : Logging) : Sys K Unit := fun w => ((), { w with process := { w.process with logging := l } })

/-- The commands of a process in some environment, with the session that they leave. -/
def transcript (build : Build) (capacity : Nat) (env : Environment) (thread : UInt64) (cs : List Command) :
    Sys K (List (Observed Outcome) × Session) := do
  let config := Config.ofEnvironment env
  configure (config.logging thread)
  (Session.ofConfig build capacity config).observeAll cs

/-! ## Channels on their own -/

/-- What a channel that is registered with an outside backend can be asked to do. -/
inductive ChannelCommand where
  | create
  | attach
  | reattach
  | wake
  | detach
  deriving DecidableEq

/-- Carries out a command on a channel. -/
def Channel.perform (c : Channel) : ChannelCommand → Sys K (Code × Channel)
  | .create => c.create
  | .attach => do pure (← c.attach (Registrar.host K), c)
  | .reattach => do pure (← c.reattach (Registrar.host K), c)
  | .wake => do pure (← c.wake, c)
  | .detach => do pure (← c.detach (Registrar.host K), c)

end Vigil
