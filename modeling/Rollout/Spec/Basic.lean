/-
Application specifications: what an author declares about a distributed application.

An application has services.  A service runs containers either as replicas or as a fixed set of
shards behind a router.  Specifications are plain data; see `Rollout.Spec.Validation` for what a
sensible one looks like and `Rollout.Spec.Wire` for how one is written.
-/

namespace Rollout.Spec

structure EnvVar where
  name : String
  value : String
  deriving DecidableEq, Repr, Inhabited

/-- Where a container sees a volume. -/
structure Mount where
  name : String
  path : String
  subPath : Option String := none
  deriving DecidableEq, Repr, Inhabited

structure Container where
  image : String
  env : List EnvVar := []
  mounts : List Mount := []
  deriving DecidableEq, Repr, Inhabited

inductive Protocol where
  | tcp
  | udp
  deriving DecidableEq, Repr, Inhabited

structure Port where
  number : UInt16
  protocol : Option Protocol := none
  deriving DecidableEq, Repr, Inhabited

/-- A persistent volume that the containers of a service may mount. -/
structure Volume where
  name : String
  claim : String
  deriving DecidableEq, Repr, Inhabited

/-- A fixed set of shards and hints for routing requests to them. -/
structure Sharding where
  shards : UInt32
  urlPattern : Option String := none
  fieldPath : Option String := none
  deriving DecidableEq, Repr, Inhabited

/-- One deployable unit: a replica set or a shard set. -/
structure Service where
  name : String
  containers : List Container := []
  ports : List Port := []
  replicas : UInt32 := 0
  sharding : Option Sharding := none
  volumes : List Volume := []
  deriving DecidableEq, Repr, Inhabited

/-- The service that gets the endpoint of the application. -/
structure Serve where
  name : String
  isPublic : Bool := false
  deriving DecidableEq, Repr, Inhabited

structure Application where
  guid : Int64 := 0
  name : String
  serve : Option Serve := none
  services : List Service := []
  deriving DecidableEq, Repr, Inhabited

namespace Service

/-- The number of shards; none without a shard set. -/
def shards (s : Service) : UInt32 :=
  (s.sharding.map (·.shards)).getD 0

/-- The service runs as a shard set that is not empty. -/
def isSharded (s : Service) : Bool :=
  s.sharding.any (0 < ·.shards)

/-- The service asks for replicas and for shards. -/
def hasConflictingScale (s : Service) : Bool :=
  0 < s.replicas && s.sharding.isSome

/-- The port under which shards are addressed. -/
def firstPort (s : Service) : Option Port :=
  s.ports.head?

end Service

namespace Application

/-- The position of the first service of a name. -/
def serviceIndex? (a : Application) (name : String) : Option Nat :=
  a.services.findIdx? (·.name == name)

/-- The first service of a name. -/
def service? (a : Application) (name : String) : Option Service :=
  a.services.find? (·.name == name)

/-- The service is the target of a public endpoint. -/
def isPublic (a : Application) (s : Service) : Bool :=
  a.serve.any fun serve => serve.isPublic && serve.name == s.name

end Application

end Rollout.Spec
