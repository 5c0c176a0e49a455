/-!
# Kinds of backend

A build has a list of backends, tried in that order (`Build.kinds`). Poll requests on a ring cannot express
level-triggered interest, so a ring is only reached when the poll set fails or a ring is asked for.
-/

namespace Vigil

/-- The kernel interfaces that a backend can stand on. -/
inductive Kind where
  | epoll
  | ring
  | kqueue
  deriving DecidableEq

namespace Kind

/-- The name that selects a kind. -/
def name : Kind → String
  | epoll => "epoll"
  | ring => "io_uring"
  | kqueue => "kqueue"

/-- What messages call the descriptor of a backend. -/
def label : Kind → String
  | epoll => "epoll_fd"
  | ring => "ring_fd"
  | kqueue => "kqueue_fd"

/-- Whether a registration can fire as long as its handle is ready. -/
def supportsLevel : Kind → Bool
  | epoll => true
  | ring => false
  | kqueue => true

/-- Whether a registration can fire each time that its handle becomes ready. -/
def supportsEdge : Kind → Bool
  | _ => true

end Kind

/-- Where the library runs. -/
inductive Platform where
  | linux
  | bsd
  deriving DecidableEq

/-- What is compiled in. -/
structure Build where
  kqueue : Bool := false
  epoll : Bool := false
  ring : Bool := false
  /-- Whether filter queues know filters that are triggered by hand. -/
  userFilter : Bool := false
  deriving DecidableEq

/-- All that a platform can have compiled in. -/
def Platform.build : Platform → Build
  | linux => { epoll := true, ring := true }
  | bsd => { kqueue := true, userFilter := true }

namespace Build

/-- Whether backends of a kind are compiled in. -/
def has (b : Build) : Kind → Bool
  | .epoll => b.epoll
  | .ring => b.ring
  | .kqueue => b.kqueue

/-- The backends of a build, in the order in which they are tried. -/
def kinds (b : Build) : List Kind := [Kind.kqueue, .epoll, .ring].filter b.has

/-- The backend of a build with a given name. -/
def find? (b : Build) (name : String) : Option Kind := b.kinds.find? (·.name == name)

end Build

end Vigil
