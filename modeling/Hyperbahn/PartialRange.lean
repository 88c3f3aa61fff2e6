import Hyperbahn.JsObject

/-!
# Partial affinity ranges

A partial range decides which workers of a service this relay keeps connections to. It is
computed from the sorted exit relays of the service, its sorted workers and the relay's own
host-port: the relay finds its index among the relays and takes a window of workers, with
wrap-around, that starts in proportion to that index.

The module `partial_range.js` that implements it is not among the sources, so the range is
modelled from its specification. The dispatcher reads the relays, the workers, `isValid` and
`affineWorkers`, and changes a range only through `compute`, `addWorker` and `removeWorker`;
the remaining fields of the object (`ratio`, `stop`) only feed logs.
-/

namespace Hyperbahn

/-- Modelled from the spec: the `PartialRange` object of the missing `partial_range.js`, as
its construction arguments and the two lists it is computed from. -/
structure PartialRange where
  /-- The host-port of this relay. -/
  relayHostPort : String
  /-- How many relays each worker should be held by. -/
  minPeersPerWorker : Nat
  /-- How many workers each relay should hold. -/
  minPeersPerRelay : Nat
  /-- The sorted exit relays of the service. -/
  relays : List String
  /-- The sorted workers of the service. -/
  workers : List String

namespace PartialRange

/-- Modelled from the spec: `new PartialRange(relayHostPort, minPeersPerWorker,
minPeersPerRelay)`, with no relays and no workers yet. -/
def create (relayHostPort : String) (minPeersPerWorker minPeersPerRelay : Nat) :
    PartialRange :=
  ⟨relayHostPort, minPeersPerWorker, minPeersPerRelay, [], []⟩

/-- Modelled from the spec: `compute(relays, workers, now)`, where a `null` list keeps the
current one (the dispatcher passes `null` for the list that did not change). -/
def compute (r : PartialRange) (relays workers : Option (List String)) : PartialRange :=
  { r with relays := relays.getD r.relays, workers := workers.getD r.workers }

/-- Modelled from the spec: a range is valid only if this relay is among the relays. -/
def isValid (r : PartialRange) : Bool := r.relays.contains r.relayHostPort

/-- Modelled from the spec: the index of this relay among the relays. -/
def relayIndex (r : PartialRange) : Nat := r.relays.indexOf r.relayHostPort

/-- Modelled from the spec: `min(workers, max(minPeersPerRelay, ⌈ratio · minPeersPerWorker⌉))`
with `ratio = workers / relays`. -/
def length (r : PartialRange) : Nat :=
  min r.workers.length (max r.minPeersPerRelay
    ((r.workers.length * r.minPeersPerWorker + r.relays.length - 1) / r.relays.length))

/-- Modelled from the spec: `⌊relayIndex · ratio⌋ mod workers`. -/
def start (r : PartialRange) : Nat :=
  r.relayIndex * r.workers.length / r.relays.length % r.workers.length

/-- Modelled from the spec: the window of `length` workers from `start`, with wrap-around. -/
def affineWorkers (r : PartialRange) : List String :=
  (List.range r.length).map fun j => r.workers.getD ((r.start + j) % r.workers.length) ""

/-- Modelled from the spec: `addWorker(hostPort, now)` puts a new worker in its sorted place. -/
def addWorker (r : PartialRange) (hostPort : String) : PartialRange :=
  if r.workers.contains hostPort then r
  else { r with workers := r.workers.orderedInsert (fun a b => jsStringLe a b) hostPort }

/-- Modelled from the spec: `removeWorker(hostPort, now)`. -/
def removeWorker (r : PartialRange) (hostPort : String) : PartialRange :=
  { r with workers := r.workers.erase hostPort }

@[simp]
theorem compute_workers (r : PartialRange) (relays workers : Option (List String)) :
    (r.compute relays workers).workers = workers.getD r.workers := rfl

@[simp]
theorem compute_relays (r : PartialRange) (relays workers : Option (List String)) :
    (r.compute relays workers).relays = relays.getD r.relays := rfl

@[simp]
theorem removeWorker_workers (r : PartialRange) (hostPort : String) :
    (r.removeWorker hostPort).workers = r.workers.erase hostPort := rfl

/-- Every affine worker is a worker of the range. -/
theorem mem_workers_of_mem_affineWorkers {r : PartialRange} {w : String}
    (h : w ∈ r.affineWorkers) : w ∈ r.workers := by
  obtain ⟨j, hj, rfl⟩ := List.mem_map.mp h
  have hpos : 0 < r.workers.length :=
    Nat.pos_of_ne_zero fun h0 => by simp [length, h0] at hj
  simp only [List.getD_eq_getElem?_getD, List.getElem?_eq_getElem (Nat.mod_lt _ hpos),
    Option.getD_some]
  exact List.getElem_mem _

/-- A range without workers has no affine worker. -/
theorem affineWorkers_eq_nil_of_workers {r : PartialRange} (h : r.workers = []) :
    r.affineWorkers = [] := by
  simp [affineWorkers, length, h]

end PartialRange

end Hyperbahn
