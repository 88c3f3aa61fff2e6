import Hyperbahn.Handler.Cluster
import Hyperbahn.Handler.Correctness.Advertise
import Hyperbahn.Dispatcher.Correctness.Channels

/-!
# One advertisement across the cluster

On an exit relay, `handleRelay` is a run of the dispatcher's own events at one time: a
`relay-ad` is one `refreshServicePeer` per service, a `relay-unad` one `removeServicePeer` per
service (`handleRelay_ad`, `handleRelay_unad`). From a reachable state it therefore returns, and
ends in a reachable state (`handleRelay_ok_of_reachable`, `reachable_handleRelay`).

Over the whole cluster, `ClusterInv` holds at every state of every run from the state
`sendRelays` starts in, whatever the order of the fan-out's events, of the deliveries and of the
relays' own events: the fan-out keeps `FanoutInv`, every relay's dispatcher stays reachable, a
delivery is of an attempt that has been sent and is recorded once, and a `sendRelay` that called
back on `ok` has had its current attempt delivered.

## Main definitions

* `ClusterInv`: the invariant of the cluster;
* `ClusterFacts`: what holds at every state of every run.

## Main results

* `ClusterInv.step` and `ClusterInv.run`: every event, and so every run, keeps the invariant;
* `sendRelays_cluster`: at every state of every run, every relay's dispatcher is reachable, so
  every invariant of the dispatcher holds at every exit; every delivery applies a bucket of the
  plan at its exit host, at most `maxRelayAdAttempts + 1` times per bucket, and can always
  happen; and once the requester is answered, if every `sendRelay` called back on `ok`, every
  exit host of every named service has run `refreshServicePeer` (or `removeServicePeer`) for it
  with the requester's host-port.
-/

namespace Hyperbahn

namespace Dispatcher

variable (cfg : Config)

/-! ## The exit side -/

theorem handleRelay_nil (d : Dispatcher) (endpoint : String) (now : Nat) :
    handleRelay cfg d endpoint [] now = .ok d := rfl

theorem handleRelay_cons (d : Dispatcher) (endpoint : String) (service : Service)
    (services : List Service) (now : Nat) :
    handleRelay cfg d endpoint (service :: services) now =
      (if endpoint = "ad" then .ok (advertise cfg d service now)
        else if endpoint = "unad" then unadvertise cfg d service now else .ok d) >>=
        fun d => handleRelay cfg d endpoint services now := rfl

/-- A `relay-ad` is the run of one advertisement per service, at one time. -/
theorem handleRelay_ad (d : Dispatcher) (services : List Service) (now : Nat) :
    handleRelay cfg d "ad" services now =
      run cfg d (services.map fun service =>
        (now, .refreshServicePeer service.serviceName service.hostPortKey)) := by
  induction services generalizing d with
  | nil => rfl
  | cons service services ih => exact ih _

/-- A `relay-unad` is the run of one unadvertisement per service, at one time. -/
theorem handleRelay_unad (d : Dispatcher) (services : List Service) (now : Nat) :
    handleRelay cfg d "unad" services now =
      run cfg d (services.map fun service =>
        (now, .removeServicePeer service.serviceName service.hostPortKey)) := by
  induction services generalizing d with
  | nil => rfl
  | cons service services ih =>
    rw [handleRelay_cons, if_neg (by decide), if_pos rfl, List.map_cons, run]
    simp only [unadvertise, step]
    cases removeServicePeer cfg d service.serviceName service.hostPortKey now with
    | error e => rfl
    | ok d => exact ih d

/-- Any other endpoint is logged and leaves the dispatcher as it is. -/
theorem handleRelay_other (d : Dispatcher) {endpoint : String} (had : endpoint ≠ "ad")
    (hunad : endpoint ≠ "unad") (services : List Service) (now : Nat) :
    handleRelay cfg d endpoint services now = .ok d := by
  induction services with
  | nil => rfl
  | cons service services ih => rw [handleRelay_cons, if_neg had, if_neg hunad]; exact ih

/-- From a reachable state, a relay request ends in a reachable state. -/
theorem reachable_handleRelay {d d' : Dispatcher} (hd : Reachable cfg d) {now : Nat}
    (hnow : 0 < now) {endpoint : String} {services : List Service}
    (he : handleRelay cfg d endpoint services now = .ok d') : Reachable cfg d' := by
  have hrun : ∀ events : List (Nat × Event), (∀ e ∈ events, 0 < e.1) →
      run cfg d events = .ok d' → Reachable cfg d' :=
    fun events hpos hr => reachable_run cfg hd hpos hr
  by_cases had : endpoint = "ad"
  · subst had
    exact hrun _ (by simp [hnow]) ((handleRelay_ad cfg d services now).symm.trans he)
  · by_cases hunad : endpoint = "unad"
    · subst hunad
      exact hrun _ (by simp [hnow]) ((handleRelay_unad cfg d services now).symm.trans he)
    · rw [handleRelay_other cfg d had hunad] at he
      cases he
      exact hd

/-- From a reachable state, a relay request returns: an unadvertisement never throws there. -/
theorem handleRelay_ok_of_reachable {d : Dispatcher} (hd : Reachable cfg d) {now : Nat}
    (hnow : 0 < now) (endpoint : String) (services : List Service) :
    ∃ d', handleRelay cfg d endpoint services now = .ok d' := by
  induction services generalizing d with
  | nil => exact ⟨d, rfl⟩
  | cons service services ih =>
    rw [handleRelay_cons]
    split_ifs with had hunad
    · exact ih (hd.step hnow
        (show step cfg d now (.refreshServicePeer service.serviceName service.hostPortKey) = _
          from rfl))
    · obtain ⟨d₁, hd₁⟩ := removeServicePeer_ok_of_reachable cfg hd service.serviceName
        service.hostPortKey now
      rw [unadvertise, hd₁]
      exact ih (hd.step hnow
        (show step cfg d now (.removeServicePeer service.serviceName service.hostPortKey) = _
          from hd₁))
    · exact ih hd

/-- A relayed endpoint's handler ends in a reachable state. -/
theorem reachable_handleRelayRequest {d d' : Dispatcher} (hd : Reachable cfg d) {now : Nat}
    (hnow : 0 < now) {endpoint : String} {services : List Service}
    (he : handleRelayRequest cfg d endpoint services now = some (.ok d')) : Reachable cfg d' := by
  unfold handleRelayRequest handleRelayAdvertise handleRelayUnadvertise at he
  split_ifs at he
  · exact reachable_handleRelay cfg hd hnow (Option.some.inj he)
  · exact reachable_handleRelay cfg hd hnow (Option.some.inj he)

/-- From a reachable state, the handler of `relay-ad` and of `relay-unad` returns. -/
theorem handleRelayRequest_ok_of_reachable {d : Dispatcher} (hd : Reachable cfg d) {now : Nat}
    (hnow : 0 < now) {endpoint : String} (hend : endpoint = "relay-ad" ∨ endpoint = "relay-unad")
    (services : List Service) : ∃ d', handleRelayRequest cfg d endpoint services now = some (.ok d') := by
  unfold handleRelayRequest handleRelayAdvertise handleRelayUnadvertise
  rcases hend with rfl | rfl
  · obtain ⟨d', hd'⟩ := handleRelay_ok_of_reachable cfg hd hnow "ad" services
    exact ⟨d', by rw [if_pos rfl, hd']⟩
  · obtain ⟨d', hd'⟩ := handleRelay_ok_of_reachable cfg hd hnow "unad" services
    exact ⟨d', by rw [if_neg (by decide), if_pos rfl, hd']⟩

end Dispatcher

namespace Cluster

variable {cfg : Config} {h : HyperbahnHandler}

/-! ## One event of the cluster -/

/-- The current attempt of relay `i` has been delivered exactly when the pair of `i` and its
attempt count is in the delivery record. -/
theorem currentDelivered_iff {c : Cluster} {i : Nat} :
    c.currentDelivered i = true ↔ ∃ r, c.fanout.relays[i]? = some r ∧ (i, r.attempts) ∈ c.delivered := by
  unfold currentDelivered
  cases hr : c.fanout.relays[i]? <;> simp [List.elem_iff]

/-- The events a cluster takes, with the conditions under which it takes them. -/
theorem step_cases {c c' : Cluster} {e : Cluster.Event} (hs : c.step cfg h e = some c') :
    (∃ i result f, e = .fanout (.respond i result) ∧
      (result.ok = true → c.currentDelivered i = true) ∧
      c.fanout.step h (.respond i result) = some f ∧
      c' = { c with fanout := f, acked := if result.ok then c.acked ++ [i] else c.acked }) ∨
    (∃ e' f, e = .fanout e' ∧ (∀ i result, e' ≠ .respond i result) ∧
      c.fanout.step h e' = some f ∧ c' = { c with fanout := f }) ∨
    (∃ i k now r d, e = .deliver i k now ∧ c.fanout.relays[i]? = some r ∧ 0 < now ∧ 1 ≤ k ∧
      k ≤ r.attempts ∧ (i, k) ∉ c.delivered ∧
      Dispatcher.handleRelayRequest cfg (c.exits r.opts.hostPort) r.opts.endpoint
        r.opts.services now = some (.ok d) ∧
      c' = { c with exits := Function.update c.exits r.opts.hostPort d,
                    delivered := c.delivered ++ [(i, k)] }) ∨
    (∃ x now e' d, e = .exit x now e' ∧ 0 < now ∧ Dispatcher.step cfg (c.exits x) now e' = .ok d ∧
      c' = { c with exits := Function.update c.exits x d }) := by
  cases e with
  | fanout e' =>
    cases e' with
    | respond i result =>
      simp only [step] at hs
      split at hs
      · cases hs
      · obtain ⟨f, hf, rfl⟩ := Option.map_eq_some'.mp hs
        exact .inl ⟨i, result, f, rfl, fun hok => by simp_all, hf, rfl⟩
    | next =>
      obtain ⟨f, hf, rfl⟩ := Option.map_eq_some'.mp hs
      exact .inr (.inl ⟨.next, f, rfl, (fun _ _ h => by cases h), hf, rfl⟩)
    | retry i =>
      obtain ⟨f, hf, rfl⟩ := Option.map_eq_some'.mp hs
      exact .inr (.inl ⟨.retry i, f, rfl, (fun _ _ h => by cases h), hf, rfl⟩)
  | deliver i k now =>
    simp only [step] at hs
    split at hs
    · rename_i r hr
      split at hs
      · rename_i hcond
        split at hs
        · rename_i d hd
          exact .inr (.inr (.inl ⟨i, k, now, r, d, rfl, hr, hcond.1, hcond.2.1, hcond.2.2.1,
            hcond.2.2.2, hd, (Option.some.inj hs).symm⟩))
        · cases hs
      · cases hs
    · cases hs
  | exit x now e' =>
    simp only [step] at hs
    split at hs
    · split at hs
      · exact .inr (.inr (.inr ⟨x, now, e', _, rfl, ‹_›, ‹_›, (Option.some.inj hs).symm⟩))
      · cases hs
    · cases hs

end Cluster

/-! ## The invariant -/

section Run

variable {cfg : Config} {h : HyperbahnHandler} {plan : List RelayOpts}

/-- A fan-out event keeps every relay it has started, with no fewer attempts, and changes one
only by the end of its attempt or by its retry. -/
theorem Fanout.exists_relay_step {f f' : Fanout} {e : Fanout.Event} (hs : f.step h e = some f')
    {i : Nat} {r : Relay} (hr : f.relays[i]? = some r) :
    ∃ r', f'.relays[i]? = some r' ∧ (r' = r ∨ (∃ result, e = .respond i result ∧
      r.phase = .inFlight ∧ r' = r.onResponse h.maxRelayAdAttempts result) ∨
      (e = .retry i ∧ r.phase = .retrying ∧ r' = r.tryRequest)) := by
  have hi : i < f.relays.length := (List.getElem?_eq_some_iff.mp hr).1
  have hlen : f.relays.length ≤ f'.relays.length := by
    rcases Fanout.step_cases hs with ⟨_, _, -, -, rfl⟩ | ⟨-, -, -, rfl⟩ |
      ⟨j, result, _, -, -, -, rfl⟩ | ⟨j, _, -, -, -, rfl⟩
    · simp
    · simp
    · split <;> simp
    · simp
  obtain ⟨r', hr'⟩ : ∃ r', f'.relays[i]? = some r' :=
    ⟨_, List.getElem?_eq_getElem (Nat.lt_of_lt_of_le hi hlen)⟩
  exact ⟨r', hr', Fanout.relay_step hs hr hr'⟩

/-- A response ends the attempt of its relay, which was in flight. -/
theorem Fanout.relays_respond {f f' : Fanout} {i : Nat} {result : AttemptResult}
    (hs : f.step h (.respond i result) = some f') :
    ∃ r, f.relays[i]? = some r ∧ f'.relays[i]? = some (r.onResponse h.maxRelayAdAttempts result) := by
  rcases Fanout.step_cases hs with ⟨_, _, he, -⟩ | ⟨he, -⟩ | ⟨j, result', r, he, hr, -, rfl⟩ |
    ⟨_, _, he, -⟩
  · cases he
  · cases he
  · cases he
    have hi : i < f.relays.length := (List.getElem?_eq_some_iff.mp hr).1
    refine ⟨r, hr, ?_⟩
    split <;> simp [List.getElem?_set_self hi]
  · cases he

/-- The invariant of the cluster during the fan-out of `plan`. -/
structure ClusterInv (cfg : Config) (h : HyperbahnHandler) (plan : List RelayOpts)
    (c : Cluster) : Prop where
  /-- The fan-out keeps its own invariant. -/
  fanout : FanoutInv h plan c.fanout
  /-- Every relay's dispatcher is reachable. -/
  exits : ∀ x, Dispatcher.Reachable cfg (c.exits x)
  /-- A delivery is of an attempt that has been sent. -/
  delivered : ∀ p ∈ c.delivered, ∃ r, c.fanout.relays[p.1]? = some r ∧ 1 ≤ p.2 ∧ p.2 ≤ r.attempts
  /-- An attempt is delivered at most once. -/
  nodup : c.delivered.Nodup
  /-- A `sendRelay` that called back on `ok` has had its last attempt delivered. -/
  acked : ∀ i ∈ c.acked, ∃ r, c.fanout.relays[i]? = some r ∧ r.phase = .calledBack ∧
    (i, r.attempts) ∈ c.delivered

namespace ClusterInv

variable {c c' : Cluster}

/-- A fan-out that keeps its invariant, with reachable exits and nothing delivered yet, starts a
cluster that keeps its invariant. -/
theorem init {f : Fanout} (hf : FanoutInv h plan f) {exits : String → Dispatcher}
    (hexits : ∀ x, Dispatcher.Reachable cfg (exits x)) : ClusterInv cfg h plan (Cluster.init f exits) :=
  ⟨hf, hexits, (fun _ h => nomatch h), List.nodup_nil, (fun _ h => nomatch h)⟩

/-- A fan-out event keeps the record of the deliveries and of the `ok` callbacks before it. -/
theorem delivered_fanout (hinv : ClusterInv cfg h plan c) {e : Fanout.Event} {f : Fanout}
    (hf : c.fanout.step h e = some f) :
    ∀ p ∈ c.delivered, ∃ r, f.relays[p.1]? = some r ∧ 1 ≤ p.2 ∧ p.2 ≤ r.attempts := by
  intro p hp
  obtain ⟨r, hr, h₁, h₂⟩ := hinv.delivered p hp
  obtain ⟨r', hr', hrel⟩ := Fanout.exists_relay_step hf hr
  refine ⟨r', hr', h₁, ?_⟩
  rcases hrel with rfl | ⟨result, -, -, rfl⟩ | ⟨-, -, rfl⟩
  · exact h₂
  · rwa [Relay.attempts_onResponse]
  · rw [Relay.attempts_tryRequest]; omega

/-- A fan-out event keeps every relay that called back on `ok` called back, with its last attempt
delivered. -/
theorem acked_fanout (hinv : ClusterInv cfg h plan c) {e : Fanout.Event} {f : Fanout}
    (hf : c.fanout.step h e = some f) :
    ∀ i ∈ c.acked, ∃ r, f.relays[i]? = some r ∧ r.phase = .calledBack ∧
      (i, r.attempts) ∈ c.delivered := by
  intro i hi
  obtain ⟨r, hr, hph, hd⟩ := hinv.acked i hi
  obtain ⟨r', hr', hrel⟩ := Fanout.exists_relay_step hf hr
  rcases hrel with rfl | ⟨-, -, hin, -⟩ | ⟨-, hret, -⟩
  · exact ⟨r', hr', hph, hd⟩
  · rw [hph] at hin; cases hin
  · rw [hph] at hret; cases hret

/-- Every event keeps the invariant. -/
theorem step (hinv : ClusterInv cfg h plan c) {e : Cluster.Event}
    (hs : c.step cfg h e = some c') : ClusterInv cfg h plan c' := by
  rcases Cluster.step_cases hs with ⟨i, result, f, rfl, hok, hf, rfl⟩ |
    ⟨e', f, rfl, -, hf, rfl⟩ | ⟨i, k, now, r, d, rfl, hr, hnow, hk₁, hk₂, hnew, hd, rfl⟩ |
    ⟨x, now, e', d, rfl, hnow, hd, rfl⟩
  · refine ⟨hinv.fanout.step hf, hinv.exits, hinv.delivered_fanout hf, hinv.nodup,
      fun j hj => ?_⟩
    by_cases hacked : result.ok = true ∧ j = i
    · obtain ⟨hres, rfl⟩ := hacked
      obtain ⟨r, hr, hdel⟩ := Cluster.currentDelivered_iff.mp (hok hres)
      obtain ⟨r₀, hr₀, hr'⟩ := Fanout.relays_respond hf
      obtain rfl := Option.some.inj (hr₀.symm.trans hr)
      refine ⟨_, hr', by simp [Relay.phase_onResponse, Relay.Retryable, hres], ?_⟩
      rwa [Relay.attempts_onResponse]
    · have hj' : j ∈ c.acked := by
        split_ifs at hj with hres
        · rcases List.mem_append.mp hj with hj | hj
          · exact hj
          · exact absurd ⟨hres, List.mem_singleton.mp hj⟩ hacked
        · exact hj
      exact hinv.acked_fanout hf j hj'
  · exact ⟨hinv.fanout.step hf, hinv.exits, hinv.delivered_fanout hf, hinv.nodup,
      hinv.acked_fanout hf⟩
  · refine ⟨hinv.fanout, (Function.forall_update_iff _ fun _ d => Dispatcher.Reachable cfg d).mpr
      ⟨Dispatcher.reachable_handleRelayRequest cfg (hinv.exits _) hnow hd,
        fun y _ => hinv.exits y⟩, fun p hp => ?_,
      hinv.nodup.append (List.nodup_singleton _) (List.disjoint_singleton.mpr hnew),
      fun j hj => ?_⟩
    · rcases List.mem_append.mp hp with hp | hp
      · exact hinv.delivered p hp
      · obtain rfl := List.mem_singleton.mp hp
        exact ⟨r, hr, hk₁, hk₂⟩
    · obtain ⟨r', hr', hph, hdel⟩ := hinv.acked j hj
      exact ⟨r', hr', hph, List.mem_append_left _ hdel⟩
  · exact ⟨hinv.fanout, (Function.forall_update_iff _ fun _ d => Dispatcher.Reachable cfg d).mpr
      ⟨(hinv.exits x).step hnow hd, fun y _ => hinv.exits y⟩, hinv.delivered, hinv.nodup,
      hinv.acked⟩

/-- Every run keeps the invariant. -/
theorem run (hinv : ClusterInv cfg h plan c) {events : List Cluster.Event}
    (hr : c.run cfg h events = some c') : ClusterInv cfg h plan c' := by
  induction events generalizing c with
  | nil => cases hr; exact hinv
  | cons e events ih =>
    obtain ⟨c₁, hs, hr⟩ := Option.bind_eq_some.mp hr
    exact ih (hinv.step hs) hr

/-- No bucket reaches its exit host more than `maxRelayAdAttempts + 1` times. -/
theorem deliveries_le (hinv : ClusterInv cfg h plan c) (i : Nat) :
    (c.delivered.filter (·.1 = i)).length ≤ h.maxRelayAdAttempts + 1 := by
  have hfst : ∀ p ∈ c.delivered.filter (·.1 = i), p.1 = i := fun p hp => by
    simpa using (List.mem_filter.mp hp).2
  have hnd : ((c.delivered.filter (·.1 = i)).map Prod.snd).Nodup :=
    (hinv.nodup.filter _).map_on fun p hp q hq he => Prod.ext ((hfst p hp).trans (hfst q hq).symm) he
  have hsub : (c.delivered.filter (·.1 = i)).map Prod.snd ⊆
      List.range' 1 (h.maxRelayAdAttempts + 1) := by
    intro k hk
    obtain ⟨p, hp, rfl⟩ := List.mem_map.mp hk
    obtain ⟨r, hr, h₁, h₂⟩ := hinv.delivered p (List.mem_filter.mp hp).1
    have := (hinv.fanout.attempts r (List.getElem?_mem hr)).2
    rw [List.mem_range'_1]
    omega
  simpa using (List.subperm_of_subset hnd hsub).length_le

end ClusterInv

/-- What holds at every state of every run of the cluster during the fan-out of `plan`, made
for the request of `remoteName` for `services`. -/
structure ClusterFacts (cfg : Config) (h : HyperbahnHandler) (remoteName : String)
    (services : List Service) (plan : List RelayOpts) (c : Cluster) : Prop where
  /-- Every relay's dispatcher is reachable, so every invariant of the dispatcher holds there. -/
  exits : ∀ x, Dispatcher.Reachable cfg (c.exits x)
  /-- The fan-out keeps `FanoutFacts`. -/
  fanout : FanoutFacts h plan c.fanout
  /-- Every delivery is of an attempt of the `sendRelay` of a bucket of the plan. -/
  planned : ∀ p ∈ c.delivered, ∃ r, c.fanout.relays[p.1]? = some r ∧ r.opts ∈ plan
  /-- No bucket reaches its exit host more than `maxRelayAdAttempts + 1` times. -/
  deliveries : ∀ i, (c.delivered.filter (·.1 = i)).length ≤ h.maxRelayAdAttempts + 1
  /-- An attempt of `relay-ad` or `relay-unad` that has been sent and not delivered can be
  delivered at any time: no exit relay throws on it. -/
  deliverable : ∀ {i r k now}, c.fanout.relays[i]? = some r →
    (r.opts.endpoint = "relay-ad" ∨ r.opts.endpoint = "relay-unad") → 0 < now → 1 ≤ k →
    k ≤ r.attempts → (i, k) ∉ c.delivered → ∃ c', c.step cfg h (.deliver i k now) = some c'
  /-- Once the requester is answered, if every `sendRelay` called back on `ok`, every exit host
  of every named service has been delivered a bucket holding the service, tagged with the
  requester's host-port. -/
  complete : c.fanout.answers ≠ [] → (∀ i < plan.length, i ∈ c.acked) →
    ∀ e ∈ services, e.serviceName ≠ "" → ∀ x ∈ h.egressNodes.exitsFor e.serviceName,
      ∃ i r k, c.fanout.relays[i]? = some r ∧ r.opts.hostPort = x ∧
        { e with hostPort := some remoteName } ∈ r.opts.services ∧ (i, k) ∈ c.delivered

/-- Every cluster state that keeps the invariant, for a planned fan-out, has the facts of
`ClusterFacts`. -/
theorem ClusterInv.facts {c : Cluster} (hinv : ClusterInv cfg h plan c) {remoteName : String}
    {services : List Service} {endpoint : String}
    (hplan : RelaysPlanned h.egressNodes remoteName services endpoint plan) :
    ClusterFacts cfg h remoteName services plan c where
  exits := hinv.exits
  fanout := hinv.fanout.facts
  planned p hp := by
    obtain ⟨r, hr, -⟩ := hinv.delivered p hp
    refine ⟨r, hr, ?_⟩
    rw [← hinv.fanout.starts]
    exact List.mem_append_left _ (List.mem_map_of_mem _ (List.getElem?_mem hr))
  deliveries := hinv.deliveries_le
  deliverable {i r k now} hr hend hnow hk₁ hk₂ hnew := by
    obtain ⟨d, hd⟩ := Dispatcher.handleRelayRequest_ok_of_reachable cfg
      (hinv.exits r.opts.hostPort) hnow hend r.opts.services
    have hs : c.step cfg h (.deliver i k now) = some { c with
        exits := Function.update c.exits r.opts.hostPort d,
        delivered := c.delivered ++ [(i, k)] } := by
      simp only [Cluster.step, hr]
      rw [if_pos ⟨hnow, hk₁, hk₂, hnew⟩, hd]
    exact ⟨_, hs⟩
  complete hans hacked e he hname x hx := by
    obtain ⟨-, hstarted, -⟩ := hinv.fanout.facts.answered.resolve_left hans
    obtain ⟨o, ho, rfl⟩ := List.mem_map.mp ((hplan.mem_iff x).mpr ⟨e, he, hname, hx⟩)
    rw [← hstarted] at ho
    obtain ⟨r, hr, rfl⟩ := List.mem_map.mp ho
    obtain ⟨i, hi⟩ := List.mem_iff_getElem?.mp hr
    have hlt : i < plan.length := by
      rw [← hstarted, List.length_map]
      exact (List.getElem?_eq_some_iff.mp hi).1
    obtain ⟨r', hr', -, hdel⟩ := hinv.acked i (hacked i hlt)
    obtain rfl := Option.some.inj (hr'.symm.trans hi)
    refine ⟨i, r', r'.attempts, hi, rfl, ?_, hdel⟩
    rw [((hplan.bucket _ (hstarted ▸ List.mem_map_of_mem _ hr)).1)]
    exact List.mem_map_of_mem _ (List.mem_filter.mpr ⟨he, by simpa using ⟨hname, hx⟩⟩)

end Run

/-- With no exit host named after a property of `Object.prototype` and every relay's dispatcher
reachable, `sendRelays` starts a fan-out such that at every state of every run of the cluster,
whatever the order of the fan-out's events, of the network's deliveries and of the relays' own
events, `ClusterFacts` holds. -/
theorem sendRelays_cluster (cfg : Config) (h : HyperbahnHandler) (remoteName : String)
    (services : List Service) (endpoint : String) (hp : ∀ e ∈ services, e.serviceName ≠ "" →
      ∀ x ∈ h.egressNodes.exitsFor e.serviceName, x ∉ objectPrototypeKeys)
    (exits : String → Dispatcher) (hexits : ∀ x, Dispatcher.Reachable cfg (exits x)) :
    ∃ f₀, sendRelays h remoteName services endpoint = .ok f₀ ∧
      ∀ events c, (Cluster.init f₀ exits).run cfg h events = some c →
        ClusterFacts cfg h remoteName services f₀.toStart c := by
  obtain ⟨f₀, hs, hplan, hinv, -⟩ := sendRelays_plan h remoteName services endpoint hp
  exact ⟨f₀, hs, fun events c hr => ((ClusterInv.init hinv hexits).run hr).facts hplan⟩

/-- The advertisement of `s1`, an unnamed service and `s2`, whose exits overlap in `y`, to a
cluster in which the dispatcher of `y` has already taken an advertisement of `v` for `s2`. -/
theorem sendRelays_cluster_overlapping :
    ∃ dy, Dispatcher.run (Config.sample "y") (Dispatcher.init Ring.overlapping)
        [(1, .refreshServicePeer "s2" "v")] = .ok dy ∧
      (∀ e ∈ [(⟨"s1", none⟩ : Service), ⟨"", none⟩, ⟨"s2", none⟩], e.serviceName ≠ "" →
        ∀ x ∈ HyperbahnHandler.overlapping.egressNodes.exitsFor e.serviceName,
          x ∉ objectPrototypeKeys) ∧
      (∀ x, Dispatcher.Reachable (Config.sample "y")
        (if x = "y" then dy else Dispatcher.init Ring.overlapping)) ∧
      ∃ f₀, sendRelays HyperbahnHandler.overlapping "w"
          [⟨"s1", none⟩, ⟨"", none⟩, ⟨"s2", none⟩] "relay-ad" = .ok f₀ ∧
        ∀ events c, (Cluster.init f₀ fun x => if x = "y" then dy else Dispatcher.init Ring.overlapping).run
            (Config.sample "y") HyperbahnHandler.overlapping events = some c →
          ClusterFacts (Config.sample "y") HyperbahnHandler.overlapping "w"
            [⟨"s1", none⟩, ⟨"", none⟩, ⟨"s2", none⟩] f₀.toStart c := by
  obtain ⟨dy, hrun⟩ : ∃ dy, Dispatcher.run (Config.sample "y") (Dispatcher.init Ring.overlapping)
      [(1, .refreshServicePeer "s2" "v")] = .ok dy := ⟨_, rfl⟩
  have hexits : ∀ x, Dispatcher.Reachable (Config.sample "y")
      (if x = "y" then dy else Dispatcher.init Ring.overlapping) := fun x => by
    split
    · exact Dispatcher.reachable_run _ (.init _) (by decide) hrun
    · exact .init _
  exact ⟨dy, hrun, by decide, hexits, sendRelays_cluster _ _ _ _ _ (by decide) _ hexits⟩

end Hyperbahn
