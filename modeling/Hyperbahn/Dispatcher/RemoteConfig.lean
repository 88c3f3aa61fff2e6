import Hyperbahn.Dispatcher.Admission
import Hyperbahn.JsBuiltins

/-!
# The remote-config updaters

`ApplicationClients` polls its remote config and, on every update and once at construction,
runs `onRemoteConfigUpdate`, which calls twelve updaters in a fixed order. An updater that
throws ends the update there: the updaters after it are not reached.

Eight of the updaters act on the dispatcher and its ring view: the circuit and the
rate-limiter toggles, the three limits handed to the rate limiter, the K values of the ring,
the kill switches and the partial-affinity toggle.

* `updateKValues` sets the default K value of the ring, then for each service of
  `kValue.services` sets its K value and reconciles every service channel with the new ring
  (`updateServiceChannels`).
* The kill switches replace the remote-config blocking table by the `cn~~sn` values of the
  `killSwitch` list, each split at `~~`; a value equal to `*~~*` is skipped.
* The partial-affinity toggle calls `enablePartialAffinity` or `disablePartialAffinity` on the
  dispatcher, which defines neither (it has `setPartialAffinityEnabled`), so the call throws.

The other four act on what the model does not hold, and are recorded as calls
(`ClientCall`): the write-buffer mode and the lazy handling of the channel, the log reservoir,
and the period of the peer reaper.
-/

namespace Hyperbahn

/-- Modelled from the spec: the values of the remote-config keys the updaters read, each `none`
when the key is absent. `remote-config.js` is not among the sources;
`remoteConfig.get(key, defaultValue)` is read as the value at `key`, or `defaultValue` when
there is none. -/
structure RemoteConfig where
  /-- `write_buffer_mode`. -/
  writeBufferMode : Option Nat := none
  /-- `lazy.handling.enabled`. -/
  lazyHandlingEnabled : Option Bool := none
  /-- `circuits.enabled`. -/
  circuitsEnabled : Option Bool := none
  /-- `rateLimiting.enabled`. -/
  rateLimitingEnabled : Option Bool := none
  /-- `rateLimiting.totalRpsLimit`. -/
  totalRpsLimit : Option Nat := none
  /-- `rateLimiting.exemptServices`. -/
  exemptServices : Option (List String) := none
  /-- `rateLimiting.rpsLimitForServiceName`, its entries in key order. -/
  rpsLimitForServiceName : Option (List (String × Nat)) := none
  /-- `kValue.default`. -/
  kValueDefault : Option Nat := none
  /-- `kValue.services`, its entries in key order. -/
  kValueServices : Option (List (String × Nat)) := none
  /-- `killSwitch`. -/
  killSwitch : Option (List String) := none
  /-- `log.reservoir.size`. -/
  logReservoirSize : Option Nat := none
  /-- `log.reservoir.flushInterval`. -/
  logReservoirFlushInterval : Option Nat := none
  /-- `peerReaper.period`. -/
  peerReaperPeriod : Option Nat := none
  /-- `partialAffinity.enabled`. -/
  partialAffinityEnabled : Option Bool := none
deriving DecidableEq, Repr

namespace Dispatcher

variable (cfg : Config)

/-! ## The flag updaters -/

/-- The shape of the three flag updaters: read the flag, `false` when absent, and call the
enabling method if it is set and the disabling one otherwise. -/
def updateFlag (flag : Option Bool) (enable disable : Dispatcher → Except String Dispatcher)
    (d : Dispatcher) : Except String Dispatcher :=
  if flag.getD false then enable d else disable d

/-- `updateCircuitsEnabled()`. -/
def updateCircuitsEnabled (rc : RemoteConfig) (d : Dispatcher) : Except String Dispatcher :=
  updateFlag rc.circuitsEnabled (fun d => .ok d.enableCircuits) (fun d => .ok d.disableCircuits) d

/-- `updateRateLimitingEnabled()`: `enableRateLimiter()` or `disableRateLimiter()`. -/
def updateRateLimitingEnabled (rc : RemoteConfig) (d : Dispatcher) : Except String Dispatcher :=
  updateFlag rc.rateLimitingEnabled (fun d => .ok { d with rateLimiterEnabled := true })
    (fun d => .ok { d with rateLimiterEnabled := false }) d

/-- `updatePartialAffinityEnabled()`: `serviceProxy.enablePartialAffinity()` or
`serviceProxy.disablePartialAffinity()`, methods the dispatcher does not have. -/
def updatePartialAffinityEnabled (rc : RemoteConfig) (d : Dispatcher) :
    Except String Dispatcher :=
  updateFlag rc.partialAffinityEnabled
    (fun _ => .error "TypeError: self.serviceProxy.enablePartialAffinity is not a function")
    (fun _ => .error "TypeError: self.serviceProxy.disablePartialAffinity is not a function") d

/-! ## The rate limiter's limits -/

/-- `updateTotalRpsLimit()`, with the limit `1200` by default. -/
def updateTotalRpsLimit (rc : RemoteConfig) (d : Dispatcher) (now : Nat) : Dispatcher :=
  d.callRateLimiter now (.updateTotalLimit (rc.totalRpsLimit.getD 1200))

/-- `updateExemptServices()`, with `autobahn` and `ringpop` exempt by default. -/
def updateExemptServices (rc : RemoteConfig) (d : Dispatcher) (now : Nat) : Dispatcher :=
  d.callRateLimiter now (.updateExemptServices (rc.exemptServices.getD ["autobahn", "ringpop"]))

/-- `updateRpsLimitForServiceName()`, with no per-service limit by default. -/
def updateRpsLimitForServiceName (rc : RemoteConfig) (d : Dispatcher) (now : Nat) :
    Dispatcher :=
  d.callRateLimiter now (.updateRpsLimitForAllServices (rc.rpsLimitForServiceName.getD []))

/-! ## The K values -/

/-- One pass of the loop of `updateKValues`: `egressNodes.setKValueFor(serviceName, kValue)`,
then `serviceProxy.updateServiceChannels()`. -/
def kValuePass (now : Nat) (d : Dispatcher) (entry : String × Nat) : Dispatcher :=
  updateServiceChannels cfg
    { d with egressNodes := cfg.setKValueFor d.egressNodes entry.1 entry.2 } now

/-- `updateKValues()`: set the default K value, `10` by default, then run the loop over the
entries of `kValue.services`, none by default. -/
def updateKValues (rc : RemoteConfig) (d : Dispatcher) (now : Nat) : Dispatcher :=
  (rc.kValueServices.getD []).foldl (kValuePass cfg now)
    { d with egressNodes := cfg.setDefaultKValue d.egressNodes (rc.kValueDefault.getD 10) }

/-! ## The kill switches -/

/-- One pass of the loop of `updateKillSwitches`: split the value at `~~`, and block the two
pieces in the remote-config table when there are two and the value is not `*~~*`. -/
def killSwitchPass (now : Nat) (d : Dispatcher) (value : String) : Except String Dispatcher :=
  let edge := Js.split value "~~"
  if edge.length = 2 && value != "*~~*" then d.blockRemoteConfig (edge.get? 0) (edge.get? 1) now
  else .ok d

/-- `updateKillSwitches()`: lift every remote-config block, then run the loop over the
`killSwitch` list, empty by default. -/
def updateKillSwitches (rc : RemoteConfig) (d : Dispatcher) (now : Nat) :
    Except String Dispatcher :=
  (rc.killSwitch.getD []).foldlM (killSwitchPass now) d.unblockAllRemoteConfig

end Dispatcher

/-! ## The updaters outside the dispatcher -/

/-- A call an updater makes outside the dispatcher's state: on the channel, on its timers, on
the log reservoir, or on the peer reaper, whose interval the model does not hold. -/
inductive ClientCall
  /-- `tchannel.setWriteBufferMode(mode)`. -/
  | setWriteBufferMode (mode : Nat)
  /-- `tchannel.setLazyRelaying(enabled)`. -/
  | setLazyRelaying (enabled : Bool)
  /-- `tchannel.timers.clearTimeout(self.lazyTimeout)`. -/
  | clearLazyTimeout
  /-- `self.lazyTimeout = tchannel.timers.setTimeout(turnOffLazyHandling, delay)`: lazy handling
  is turned off when the timer fires. -/
  | setLazyTimeout (delay : Nat)
  /-- `tchannel.setLazyHandling(enabled)`. -/
  | setLazyHandling (enabled : Bool)
  /-- `logReservoir.setFlushInterval(interval)`. -/
  | setFlushInterval (interval : Nat)
  /-- `logReservoir.setSize(size)`. -/
  | setSize (size : Nat)
  /-- `serviceProxy.setReapPeersPeriod(period)`, which is `peerReaper.setInterval(period)`; the
  period `0` turns the reaper off. -/
  | setReapPeersPeriod (period : Nat)
deriving DecidableEq, Repr

/-- The parts of `ApplicationClients` that `onRemoteConfigUpdate` acts on. -/
structure ApplicationClients where
  /-- `serviceProxy`, the dispatcher, with its ring view `egressNodes`. -/
  serviceProxy : Dispatcher
  /-- Whether `logReservoir` is set; it is `null` when the application was given a logger. -/
  logReservoir : Bool
  /-- The calls made so far outside the dispatcher, oldest first. -/
  calls : List ClientCall

namespace ApplicationClients

variable (cfg : Config)

/-- Record calls made outside the dispatcher. -/
def call (c : ApplicationClients) (calls : List ClientCall) : ApplicationClients :=
  { c with calls := c.calls ++ calls }

/-- `updateWriteBufferMode()`, with the mode `1` (`WRITE_BUFFER_STATIC`) by default. -/
def updateWriteBufferMode (rc : RemoteConfig) (c : ApplicationClients) : ApplicationClients :=
  c.call [.setWriteBufferMode (rc.writeBufferMode.getD 1)]

/-- `updateLazyHandling()`, with lazy handling on by default: set lazy relaying and cancel a
pending turn-off, then turn lazy handling off in 30 seconds when it is disabled, and set it at
once otherwise. -/
def updateLazyHandling (rc : RemoteConfig) (c : ApplicationClients) : ApplicationClients :=
  let enabled := rc.lazyHandlingEnabled.getD true
  c.call ([.setLazyRelaying enabled, .clearLazyTimeout] ++
    if enabled = false then [.clearLazyTimeout, .setLazyTimeout 30000]
    else [.setLazyHandling enabled])

/-- `updateReservoir()`: when there is a log reservoir, set its flush interval, `50` by default,
then its size, `100` by default. -/
def updateReservoir (rc : RemoteConfig) (c : ApplicationClients) : ApplicationClients :=
  if c.logReservoir then
    c.call [.setFlushInterval (rc.logReservoirFlushInterval.getD 50),
      .setSize (rc.logReservoirSize.getD 100)]
  else c

/-- `updateReapPeersPeriod()`, with the period `0` by default. -/
def updateReapPeersPeriod (rc : RemoteConfig) (c : ApplicationClients) : ApplicationClients :=
  c.call [.setReapPeersPeriod (rc.peerReaperPeriod.getD 0)]

/-! ## The whole update -/

open Dispatcher in
/-- `onRemoteConfigUpdate()`: the twelve updaters in the order of the source, up to the first
that throws. -/
def onRemoteConfigUpdate (rc : RemoteConfig) (c : ApplicationClients) (now : Nat) :
    Except String ApplicationClients := do
  let c := updateWriteBufferMode rc c
  let c := updateLazyHandling rc c
  let d ← updateCircuitsEnabled rc c.serviceProxy
  let d ← updateRateLimitingEnabled rc d
  let d := updateTotalRpsLimit rc d now
  let d := updateExemptServices rc d now
  let d := updateRpsLimitForServiceName rc d now
  let d := updateKValues cfg rc d now
  let d ← updateKillSwitches rc d now
  let c := updateReservoir rc { c with serviceProxy := d }
  let c := updateReapPeersPeriod rc c
  let d ← updatePartialAffinityEnabled rc c.serviceProxy
  return { c with serviceProxy := d }

end ApplicationClients

end Hyperbahn
