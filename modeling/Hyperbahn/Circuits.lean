import Hyperbahn.JsObject

/-!
# The circuit registry

`Circuits` of `circuits.js` keeps one circuit per (service, caller, endpoint) in a three-level
map whose keys carry a `'$'` prefix, so that no key is a property of `Object.prototype`. A
circuit is created healthy on first lookup; its health state machine lives in `states.js`,
which is not among the sources, so a circuit is modelled by the names it is keyed by.
`updateServices` runs after a membership change and drops the subtree of every key for which
the ring no longer names this relay an exit.

The loop asks the ring about each key as it stands, so the subtree of a service `s` survives
exactly when the ring names this relay an exit of the name `'$' + s`, whatever it answers for
`s` itself (`get_updateServices`).
-/

namespace Hyperbahn

/-- A `Circuit`: the names given at its creation, with a missing caller named `no-cn`. -/
structure Circuit where
  /-- The caller name. -/
  callerName : String
  /-- The service name. -/
  serviceName : String
  /-- The endpoint name (`arg1`). -/
  endpointName : String
deriving DecidableEq, Repr

/-- The names of a circuit as `collectCircuitTuples` pushes them:
`[callerName, serviceName, endpointName]`. -/
def Circuit.tuple (circuit : Circuit) : String × String × String :=
  (circuit.callerName, circuit.serviceName, circuit.endpointName)

/-- `Circuits`: `circuitsByServiceName['$' + serviceName].circuitsByCallerName['$' +
callerName].circuitsByEndpointName['$' + endpointName]`. -/
structure Circuits where
  /-- The service level, keyed by `'$' + serviceName`. -/
  circuitsByServiceName : JsMap (JsMap (JsMap Circuit))

namespace Circuits

/-- A registry with no circuit. -/
def empty : Circuits := ⟨∅⟩

/-- `new Circuit(callerName, serviceName, endpointName)`. -/
def newCircuit (callerName serviceName endpointName : String) : Circuit :=
  ⟨if callerName = "" then "no-cn" else callerName, serviceName, endpointName⟩

/-- `getCircuit(callerName, serviceName, endpointName)`: the circuit, created with its
`ServiceCircuits` and `EndpointCircuits` levels if missing. -/
def getCircuit (c : Circuits) (callerName serviceName endpointName : String) :
    Circuit × Circuits :=
  let byCaller := (c.circuitsByServiceName.get ("$" ++ serviceName)).getD ∅
  let byEndpoint := (byCaller.get ("$" ++ callerName)).getD ∅
  match byEndpoint.get ("$" ++ endpointName) with
  | some circuit => (circuit, c)
  | none =>
    let circuit := newCircuit callerName serviceName endpointName
    (circuit, ⟨c.circuitsByServiceName.set ("$" ++ serviceName)
      (byCaller.set ("$" ++ callerName) (byEndpoint.set ("$" ++ endpointName) circuit))⟩)

/-- One pass of the loop of `updateServices` over the key `serviceName`. -/
def updateService (isExitFor : String → Bool) (c : Circuits) (serviceName : String) :
    Circuits :=
  if isExitFor serviceName then c else ⟨c.circuitsByServiceName.delete serviceName⟩

/-- `updateServices()`: the loop over `Object.keys(circuitsByServiceName)`, which asks the
ring about each key as it stands, `'$'` prefix included. -/
def updateServices (isExitFor : String → Bool) (c : Circuits) : Circuits :=
  c.circuitsByServiceName.keys.foldl (updateService isExitFor) c

/-! ## Requests and the list of circuits -/

/-- What `getCircuitForRequest` reads of a request. -/
structure CircuitRequest where
  /-- `req.headers.cn`, if set. -/
  cn : Option String
  /-- `req.serviceName`, empty when missing. -/
  serviceName : String
  /-- `String(req.arg1)`, the endpoint name. -/
  arg1 : String
deriving DecidableEq, Repr

/-- `req.headers.cn || 'no-cn'`: every caller that gives no name shares the circuits of
`no-cn`. -/
def CircuitRequest.callerName (req : CircuitRequest) : String :=
  match req.cn with
  | some cn => if cn = "" then "no-cn" else cn
  | none => "no-cn"

/-- An `ErrorFrame(codeName, message)`. -/
structure ErrorFrame where
  /-- `codeName`. -/
  codeName : String
  /-- `message`. -/
  message : String
deriving DecidableEq, Repr

/-- `getCircuitForRequest(req)`: a `BadRequest` for a request with no service name; otherwise
the circuit of the request, made if missing, and a `Declined` when its state machine says the
service is not healthy. That state machine is in `states.js`, which is not among the sources:
`shouldRequest` is its answer. -/
def getCircuitForRequest (c : Circuits) (shouldRequest : Circuit → Bool) (req : CircuitRequest) :
    Except ErrorFrame Circuit × Circuits :=
  if req.serviceName = "" then (.error ⟨"BadRequest", "All requests must have a service name"⟩, c)
  else
    let (circuit, c) := c.getCircuit req.callerName req.serviceName req.arg1
    if shouldRequest circuit then (.ok circuit, c)
    else (.error ⟨"Declined", "Service is not healthy"⟩, c)

/-- The loop shared by the three `collectCircuitTuples`: over `Object.keys(table)`, `collect`
pushes the tuples of the value under each key. -/
def collectEach {β : Type} (table : JsMap β)
    (collect : β → List (String × String × String) → List (String × String × String))
    (tuples : List (String × String × String)) : List (String × String × String) :=
  table.keys.foldl (fun tuples key =>
    match table.get key with
    | some value => collect value tuples
    | none => tuples) tuples

/-- `EndpointCircuits.prototype.collectCircuitTuples(tuples)`. -/
def EndpointCircuits.collectCircuitTuples (circuitsByEndpointName : JsMap Circuit)
    (tuples : List (String × String × String)) : List (String × String × String) :=
  collectEach circuitsByEndpointName (fun circuit tuples => tuples ++ [circuit.tuple]) tuples

/-- `ServiceCircuits.prototype.collectCircuitTuples(tuples)`. -/
def ServiceCircuits.collectCircuitTuples (circuitsByCallerName : JsMap (JsMap Circuit))
    (tuples : List (String × String × String)) : List (String × String × String) :=
  collectEach circuitsByCallerName EndpointCircuits.collectCircuitTuples tuples

/-- `getCircuitTuples()`. -/
def getCircuitTuples (c : Circuits) : List (String × String × String) :=
  collectEach c.circuitsByServiceName ServiceCircuits.collectCircuitTuples []

/-- A call on the registry: the lookup of a request, or the `updateServices()` of a membership
change, with the ring's `isExitFor`. -/
inductive Call
  /-- `getCircuitForRequest(req)`. -/
  | getCircuitForRequest (shouldRequest : Circuit → Bool) (req : CircuitRequest)
  /-- `updateServices()`. -/
  | updateServices (isExitFor : String → Bool)

/-- The registry after one call. -/
def apply (c : Circuits) : Call → Circuits
  | .getCircuitForRequest shouldRequest req => (c.getCircuitForRequest shouldRequest req).2
  | .updateServices isExitFor => c.updateServices isExitFor

/-! ## What `updateServices` keeps -/

theorem get_updateService (isExitFor : String → Bool) (c : Circuits) (serviceName k : String) :
    (updateService isExitFor c serviceName).circuitsByServiceName.get k =
      if k = serviceName ∧ isExitFor serviceName = false then none
      else c.circuitsByServiceName.get k := by
  unfold updateService
  cases isExitFor serviceName <;> simp

theorem get_foldl_updateService (isExitFor : String → Bool) (l : List String) (c : Circuits)
    (k : String) :
    (l.foldl (updateService isExitFor) c).circuitsByServiceName.get k =
      if k ∈ l ∧ isExitFor k = false then none else c.circuitsByServiceName.get k := by
  induction l generalizing c with
  | nil => simp
  | cons a l ih =>
    rw [List.foldl_cons, ih, get_updateService]
    by_cases hk : k = a
    · subst hk; cases isExitFor k <;> simp
    · simp [hk]

/-- `updateServices` keeps the subtree under a key exactly when the ring names this relay an
exit for that key. -/
theorem get_updateServices (isExitFor : String → Bool) (c : Circuits) (k : String) :
    (c.updateServices isExitFor).circuitsByServiceName.get k =
      if isExitFor k then c.circuitsByServiceName.get k else none := by
  rw [updateServices, get_foldl_updateService]
  cases hp : isExitFor k
  · cases hc : c.circuitsByServiceName.get k <;> simp [JsMap.contains, hc]
  · simp

end Circuits

end Hyperbahn
