import Hyperbahn.Dispatcher.Membership

/-!
# Request admission

A call request reaches the dispatcher by one of two paths: `handleRequest` for a request whose
frames were parsed, and `handleLazily` for a lazily relayed frame, whose service name and
headers are read out of the raw frame. Both take the routing delegate `rd`, when set, as the
effective service; apply the blocking tables; apply the rate limiter (`rateLimit`) when it is
enabled; and hand the request to the service channel of the effective service, created on
first use. The lazy path hands the raw frame on only to a handler that can take it lazily, and
returns `false` for any other (`lazyHandOff`).

The blocking tables map `cn~~sn` keys to the time of the block; `*` stands for any caller or
any service.
-/

namespace Hyperbahn

/-- A string read from a header or a field, with the empty string falsy as JavaScript has it. -/
def truthyString : Option String → Option String
  | some s => if s = "" then none else some s
  | none => none

/-- `name || '*'`. -/
def orWildcard (name : Option String) : String := (truthyString name).getD "*"

/-- The headers of a request that the dispatcher reads. -/
structure RequestHeaders where
  /-- `cn`, the caller name. -/
  cn : Option String
  /-- `rd`, the routing delegate. -/
  rd : Option String
deriving DecidableEq, Repr

/-- What `handleRequest` reads of a parsed call request. -/
structure CallRequest where
  /-- `req.serviceName`. -/
  serviceName : String
  /-- `req.headers`, if any. -/
  headers : Option RequestHeaders
  /-- Whether `req.connection.ops` exists; a self connection has none. -/
  hasConnectionOps : Bool
deriving DecidableEq, Repr

/-- What `handleLazily` reads out of a lazy call request frame. -/
structure LazyFrame where
  /-- The result of `readService`, `none` when reading failed. -/
  serviceName : Option String
  /-- The result of `readHeaders`, `none` when reading failed. -/
  headers : Option RequestHeaders
deriving DecidableEq, Repr

/-- How the dispatcher disposed of a call request. -/
inductive Admission
  /-- An error frame `BadRequest` with this message. -/
  | badRequest (message : String)
  /-- `popInReq` after the block check: no response at all. -/
  | blocked
  /-- The kill switch: `popInReq` when the connection allows it. -/
  | killSwitched (popped : Bool)
  /-- An error frame `Busy` with this message. -/
  | busy (message : String)
  /-- Handed to the relay handler of the service channel of this service. -/
  | dispatched (serviceName : String)
  /-- The lazy path found the service channel of this service with a handler that has no
  `handleLazily`, and returned `false`: the frame is left to the eager path. -/
  | declined (serviceName : String)
deriving DecidableEq, Repr

/-- The outcome of `rateLimit`: `''`, `'killswitch'`, `'total'` or `'service'`. -/
inductive RateLimitReason
  | none
  | killSwitch
  | total
  | service
deriving DecidableEq, Repr

namespace Dispatcher

variable (cfg : Config)

/-- Whether one blocking table holds `cn~~sn`, `*~~sn` or `cn~~*`. -/
def tableBlocks (table : Option (JsMap Nat)) (cn serviceName : String) : Bool :=
  match table with
  | some table => [cn ++ "~~" ++ serviceName, "*~~" ++ serviceName, cn ++ "~~*"].any
      fun key => (table.get key).any (· ≠ 0)
  | none => false

/-- `isBlocked(cn, serviceName)`: either table blocks the pair, with a missing name read as
`*`. -/
def isBlocked (d : Dispatcher) (cn serviceName : Option String) : Bool :=
  tableBlocks d.blockingTable (orWildcard cn) (orWildcard serviceName) ||
    tableBlocks d.blockingTableRemoteConfig (orWildcard cn) (orWildcard serviceName)

/-- Record a call on the rate limiter. -/
def callRateLimiter (d : Dispatcher) (now : Nat) (call : RateLimiterCall) : Dispatcher :=
  { d with rateLimiter := d.rateLimiter ++ [(now, call)] }

/-- Ask the rate limiter about a service. -/
def askRateLimiter (d : Dispatcher) (now : Nat) (query : RateLimiterQuery)
    (serviceName : String) : Bool :=
  cfg.rateLimiter.decide d.rateLimiter now query serviceName

/-- `rateLimit(cn, serviceName)`: count the edge; as an exit, make the service counters; apply
the kill switch, count it, apply the total limit, then the service limit as an exit, and count
the request. -/
def rateLimit (d : Dispatcher) (cn : Option String) (serviceName : String) (now : Nat) :
    RateLimitReason × Dispatcher :=
  let d := d.callRateLimiter now (.incrementEdgeCounter (cn.getD "undefined" ++ "~~" ++ serviceName))
  let isExitNode := d.isExitFor cfg serviceName
  let d := if isExitNode then
      (d.callRateLimiter now (.createServiceCounter serviceName)).callRateLimiter now
        (.createKillSwitchServiceCounter serviceName)
    else d
  if d.askRateLimiter cfg now .shouldKillSwitchTotalRequest serviceName ||
      (isExitNode && d.askRateLimiter cfg now .shouldKillSwitchService serviceName) then
    (.killSwitch, d)
  else
    let d := d.callRateLimiter now (.incrementKillSwitchTotalCounter serviceName)
    let d := if isExitNode then
        d.callRateLimiter now (.incrementKillSwitchServiceCounter serviceName) else d
    if d.askRateLimiter cfg now .shouldRateLimitTotalRequest serviceName then (.total, d)
    else if isExitNode && d.askRateLimiter cfg now .shouldRateLimitService serviceName then
      (.service, d)
    else
      let d := d.callRateLimiter now (.incrementTotalCounter serviceName)
      let d := if isExitNode then d.callRateLimiter now (.incrementServiceCounter serviceName)
        else d
      (.none, d)

/-- `rateLimit` changes only what `callRateLimiter` changes: the log of the rate limiter. -/
theorem rateLimit_frame {β : Type} (π : Dispatcher → β)
    (hπ : ∀ d now call, π (d.callRateLimiter now call) = π d) (d : Dispatcher)
    (cn : Option String) (serviceName : String) (now : Nat) :
    π (rateLimit cfg d cn serviceName now).2 = π d := by
  simp only [rateLimit, apply_ite (fun r : RateLimitReason × Dispatcher => π r.2), apply_ite π, hπ,
    ite_self]

/-- The `Busy` message for the total limit. -/
def totalLimitMessage (d : Dispatcher) : String :=
  "hyperbahn node is rate-limited by the total rps of " ++
    toString (cfg.rateLimiter.totalRpsLimit d.rateLimiter)

/-- The `Busy` message for the service limit of `nextService`, naming the routing delegate
when there is one and the declared service otherwise. -/
def serviceLimitMessage (d : Dispatcher) (routingDelegate : Option String)
    (serviceName nextService : String) : String :=
  let serviceLimit := toString (cfg.rateLimiter.rpsLimitForService d.rateLimiter nextService)
  match routingDelegate with
  | some rd => "Routing delegate " ++ rd ++ " is rate-limited by the service rps of " ++ serviceLimit
  | none => serviceName ++ " is rate-limited by the service rps of " ++ serviceLimit

/-- The common tail of both paths once the block check passed: rate limit when enabled, then
hand the request to the service channel of `nextService`. -/
def rateLimitAndDispatch (d : Dispatcher) (cn routingDelegate : Option String)
    (serviceName nextService : String) (popped : Bool) (now : Nat) : Admission × Dispatcher :=
  let (reason, d) := if d.rateLimiterEnabled then rateLimit cfg d cn nextService now
    else (.none, d)
  match reason with
  | .killSwitch => (.killSwitched popped, d)
  | .total => (.busy (totalLimitMessage cfg d), d)
  | .service => (.busy (serviceLimitMessage cfg d routingDelegate serviceName nextService), d)
  | .none => (.dispatched nextService, getOrCreateServiceChannel cfg d nextService)

/-- `handleRequest(req, buildRes)`. The block check uses the effective service. -/
def handleRequest (d : Dispatcher) (req : CallRequest) (now : Nat) : Admission × Dispatcher :=
  if req.serviceName = "" then (.badRequest "no service name given", d)
  else
    let routingDelegate := truthyString (req.headers.bind (·.rd))
    let nextService := routingDelegate.getD req.serviceName
    let cn := req.headers.bind (·.cn)
    if d.isBlocked cn (some nextService) then (.blocked, d)
    else rateLimitAndDispatch cfg d cn routingDelegate req.serviceName nextService req.hasConnectionOps now

/-- The last lines of `handleLazily`: a request handed to a service channel goes on to
`serviceChannel.handler.handleLazily(conn, reqFrame)` when the handler has that method, as a
relay handler does, and otherwise the call returns `false`. -/
def lazyHandOff : Admission × Dispatcher → Admission × Dispatcher
  | (.dispatched serviceName, d) =>
    match (d.subChannels.get serviceName).map SubChannel.handler with
    | some (.relay _) => (.dispatched serviceName, d)
    | _ => (.declined serviceName, d)
  | r => r

/-- The hand-off changes no state. -/
@[simp]
theorem lazyHandOff_snd (r : Admission × Dispatcher) : (lazyHandOff r).2 = r.2 := by
  unfold lazyHandOff; split
  · split <;> rfl
  · rfl

/-- `handleLazily(conn, reqFrame)`. The block check uses the declared service name. -/
def handleLazily (d : Dispatcher) (frame : LazyFrame) (now : Nat) : Admission × Dispatcher :=
  match frame.serviceName with
  | none => (.badRequest "failed to read serviceName", d)
  | some serviceName =>
    if serviceName = "" then (.badRequest "missing serviceName", d)
    else match frame.headers with
    | none => (.badRequest "failed to read headers", d)
    | some headers =>
      let routingDelegate := truthyString headers.rd
      let nextService := routingDelegate.getD serviceName
      match truthyString headers.cn with
      | none => (.badRequest "missing cn header", d)
      | some cn =>
        if d.isBlocked (some cn) (some serviceName) then (.blocked, d)
        else lazyHandOff
          (rateLimitAndDispatch cfg d (some cn) routingDelegate serviceName nextService true now)

/-- `block(cn, serviceName)`: add the pair to the operator table; `*~~*` fails the assertion. -/
def block (d : Dispatcher) (cn serviceName : Option String) (now : Nat) :
    Except String Dispatcher :=
  if orWildcard cn = "*" && orWildcard serviceName = "*" then
    .error "AssertionError: at least one of cn/serviceName should be provided"
  else .ok { d with blockingTable := some ((d.blockingTable.getD ∅).set
    (orWildcard cn ++ "~~" ++ orWildcard serviceName) now) }

/-- `unblock(cn, serviceName)`: lift the block on the pair; an emptied table becomes `null`. -/
def unblock (d : Dispatcher) (cn serviceName : Option String) : Dispatcher :=
  match d.blockingTable with
  | some table =>
    let table := table.delete (orWildcard cn ++ "~~" ++ orWildcard serviceName)
    { d with blockingTable := if table.isEmpty then none else some table }
  | none => d

/-- `blockRemoteConfig(cn, serviceName)`: add the pair to the remote-config table. -/
def blockRemoteConfig (d : Dispatcher) (cn serviceName : Option String) (now : Nat) :
    Except String Dispatcher :=
  if orWildcard cn = "*" && orWildcard serviceName = "*" then
    .error "AssertionError: at least one of cn/serviceName should be provided"
  else .ok { d with blockingTableRemoteConfig := some ((d.blockingTableRemoteConfig.getD ∅).set
    (orWildcard cn ++ "~~" ++ orWildcard serviceName) now) }

/-- `unblockAllRemoteConfig()`. -/
def unblockAllRemoteConfig (d : Dispatcher) : Dispatcher :=
  { d with blockingTableRemoteConfig := none }

end Dispatcher

end Hyperbahn
