import Hyperbahn.Handler.Advertise

/-!
# Every advertisement is relayed once to each exit and answered once

`sendRelays` makes one bucket per exit host of the services it is given, and the bucket of an
exit host holds, in request order, the named services that have it among their exits, each
tagged with the requester's host-port (`sendRelays_plan`), unless an exit host is named after a
property of `Object.prototype`, when the loop throws (`sendRelays_throws_of_prototype_exit`).

From there every run of the fan-out, whatever the order in which attempts end and timers fire,
keeps `FanoutInv`: the relays started are the first buckets, in order; no relay makes more than
`maxRelayAdAttempts + 1` attempts; `counter` is `1 + exitNodeKeys.length` less the callbacks and
the last `onFinish()`; and the requester has been answered, once, exactly when it reaches `0`.
Each event lowers `Fanout.remaining`, so every run is finite (`FanoutInv.run`), and a state where
no event can happen has every relay called back (`Fanout.done_of_stuck`). `FanoutFacts` states
what holds at every state of a run: the relays started are the first buckets, in order; no relay
makes more than `maxRelayAdAttempts + 1` attempts; the requester is answered at most once, and
only after every relay has called back; an event retries a relay only from its pending timer and
never changes a relay that has called back; and a state where no event can happen has every
relay called back and the requester answered. `sendRelays_relays_once` proves it, with the bound
on the length of every run, for every request.
-/

namespace Hyperbahn

/-- The bucket of `exitNode`: the named services that have it among their exits, in request
order, tagged with the requester's host-port. -/
def bucketFor (egressNodes : Ring) (remoteName : String) (services : List Service)
    (exitNode : String) : List Service :=
  (services.filter fun e => e.serviceName != "" &&
      (egressNodes.exitsFor e.serviceName).contains exitNode).map
    fun e => { e with hostPort := some remoteName }

theorem bucketFor_cons (egressNodes : Ring) (remoteName : String) (e : Service)
    (services : List Service) (x : String) :
    bucketFor egressNodes remoteName (e :: services) x =
      (if e.serviceName ≠ "" ∧ x ∈ egressNodes.exitsFor e.serviceName then
        [{ e with hostPort := some remoteName }] else []) ++
      bucketFor egressNodes remoteName services x := by
  unfold bucketFor
  by_cases hc : e.serviceName ≠ "" ∧ x ∈ egressNodes.exitsFor e.serviceName <;>
    simp [List.filter_cons, hc]

/-- Retries cannot be turned off: a missing or zero option takes the default. -/
theorem maxRelayAdAttempts_create_pos (egressNodes : Ring)
    (hnodup : ∀ s, (egressNodes.exitsFor s).Nodup) (maxRelayAdAttempts : Option Nat) :
    0 < (HyperbahnHandler.create egressNodes hnodup maxRelayAdAttempts).maxRelayAdAttempts := by
  unfold HyperbahnHandler.create defaultMaxRelayAdAttempts
  cases maxRelayAdAttempts with
  | none => exact Nat.two_pos
  | some n =>
    dsimp only
    split <;> omega

/-! ## Buckets -/

section Buckets

variable (egressNodes : Ring) (remoteName : String)

theorem pushService_ok (service : Service) (b : JsMap (List Service)) {x : String}
    (hx : x ∉ objectPrototypeKeys) :
    pushService service b x = .ok (b.set x ((b.get x).getD [] ++ [service])) := by
  unfold pushService
  cases b.get x <;> simp [hx]

/-- The inner loop over distinct exit hosts, none named after a property of `Object.prototype`,
appends the service to the bucket of each. -/
theorem foldlM_pushService (service : Service) :
    ∀ {exits : List String} (b : JsMap (List Service)), exits.Nodup →
      (∀ x ∈ exits, x ∉ objectPrototypeKeys) →
      ∃ b', exits.foldlM (pushService service) b = .ok b' ∧
        ∀ k, b'.get k = if k ∈ exits then some ((b.get k).getD [] ++ [service]) else b.get k
  | [], b, _, _ => ⟨b, rfl, fun k => by simp⟩
  | x :: xs, b, hnd, hp => by
    obtain ⟨hx, hnd⟩ := List.nodup_cons.mp hnd
    obtain ⟨b', hb', hget⟩ := foldlM_pushService service
      (b.set x ((b.get x).getD [] ++ [service])) hnd fun y hy => hp y (.tail _ hy)
    refine ⟨b', by rw [List.foldlM_cons, pushService_ok service b (hp x (.head _))]; exact hb',
      fun k => ?_⟩
    rw [hget, JsMap.get_set]
    by_cases hk : k = x
    · subst hk
      simp [hx]
    · simp [hk]

/-- With no exit host named after a property of `Object.prototype`, the first loop of
`sendRelays` appends to each bucket the services of `bucketFor`. -/
theorem bucketServices_ok (hnodup : ∀ s, (egressNodes.exitsFor s).Nodup) :
    ∀ {services : List Service} (b : JsMap (List Service)),
      (∀ e ∈ services, e.serviceName ≠ "" →
        ∀ x ∈ egressNodes.exitsFor e.serviceName, x ∉ objectPrototypeKeys) →
      ∃ b', bucketServices egressNodes remoteName services b = .ok b' ∧ ∀ k,
        (b'.get k).getD [] = (b.get k).getD [] ++ bucketFor egressNodes remoteName services k ∧
        ((b'.get k).isSome ↔
          (b.get k).isSome ∨ bucketFor egressNodes remoteName services k ≠ [])
  | [], b, _ => ⟨b, rfl, fun k => by simp [bucketFor]⟩
  | e :: services, b, hp => by
    by_cases he : e.serviceName = ""
    · obtain ⟨b', hb', hk⟩ := bucketServices_ok hnodup b fun e' h => hp e' (.tail _ h)
      refine ⟨b', by simp [bucketServices, he, hb'], fun k => ?_⟩
      rw [bucketFor_cons, if_neg fun h => h.1 he, List.nil_append]
      exact hk k
    · obtain ⟨b₁, hb₁, hget₁⟩ :=
        foldlM_pushService { e with hostPort := some remoteName } b (hnodup e.serviceName)
          (hp e (.head _) he)
      obtain ⟨b', hb', hk⟩ := bucketServices_ok hnodup b₁ fun e' h => hp e' (.tail _ h)
      refine ⟨b', by simp [bucketServices, he, hb₁, hb'], fun k => ?_⟩
      obtain ⟨hk₁, hk₂⟩ := hk k
      rw [hget₁] at hk₁ hk₂
      rw [bucketFor_cons]
      by_cases hx : k ∈ egressNodes.exitsFor e.serviceName
      · rw [if_pos hx, Option.getD_some] at hk₁
        rw [if_pos hx, Option.isSome_some] at hk₂
        rw [if_pos ⟨he, hx⟩, hk₁, List.append_assoc]
        exact ⟨rfl, by simpa using hk₂⟩
      · rw [if_neg hx] at hk₁ hk₂
        rw [if_neg fun h => hx h.2, List.nil_append]
        exact ⟨hk₁, hk₂⟩

end Buckets

/-- The plan `sendRelays` makes for a request: one bucket per distinct exit host of the named
services, holding `bucketFor` and the endpoint. -/
structure RelaysPlanned (egressNodes : Ring) (remoteName : String) (services : List Service)
    (endpoint : String) (plan : List RelayOpts) : Prop where
  /-- One bucket per exit host. -/
  nodup : (plan.map (·.hostPort)).Nodup
  /-- The exit hosts of the named services. -/
  mem_iff : ∀ x, x ∈ plan.map (·.hostPort) ↔
    ∃ e ∈ services, e.serviceName ≠ "" ∧ x ∈ egressNodes.exitsFor e.serviceName
  /-- Each bucket and its endpoint. -/
  bucket : ∀ o ∈ plan,
    o.services = bucketFor egressNodes remoteName services o.hostPort ∧ o.endpoint = endpoint

theorem bucketFor_ne_nil_iff (egressNodes : Ring) (remoteName : String) (services : List Service)
    (x : String) : bucketFor egressNodes remoteName services x ≠ [] ↔
      ∃ e ∈ services, e.serviceName ≠ "" ∧ x ∈ egressNodes.exitsFor e.serviceName := by
  simp [bucketFor, List.filter_eq_nil_iff]

/-! ## Every run of the fan-out -/

section Run

variable {h : HyperbahnHandler} {plan : List RelayOpts}

namespace Relay

@[simp] theorem opts_tryRequest (r : Relay) : r.tryRequest.opts = r.opts := rfl
@[simp] theorem attempts_tryRequest (r : Relay) : r.tryRequest.attempts = r.attempts + 1 := rfl
@[simp] theorem phase_tryRequest (r : Relay) : r.tryRequest.phase = .inFlight := rfl
@[simp] theorem opts_start (o : RelayOpts) : (start o).opts = o := rfl
@[simp] theorem attempts_start (o : RelayOpts) : (start o).attempts = 1 := rfl
@[simp] theorem phase_start (o : RelayOpts) : (start o).phase = .inFlight := rfl

@[simp]
theorem opts_onResponse (m : Nat) (r : Relay) (result : AttemptResult) :
    (r.onResponse m result).opts = r.opts := by
  unfold onResponse; split_ifs <;> rfl

@[simp]
theorem attempts_onResponse (m : Nat) (r : Relay) (result : AttemptResult) :
    (r.onResponse m result).attempts = r.attempts := by
  unfold onResponse; split_ifs <;> rfl

/-- An attempt that leaves the relay waiting to retry ended, not ok, in a network error or a
timeout, with attempts left. -/
def Retryable (m : Nat) (r : Relay) (result : AttemptResult) : Prop :=
  result.ok = false ∧ r.attempts ≤ m ∧ result.err = true ∧
    (result.codeName = some "NetworkError" ∨ result.codeName = some "Timeout")

instance (m : Nat) (r : Relay) (result : AttemptResult) : Decidable (Retryable m r result) :=
  inferInstanceAs (Decidable (result.ok = false ∧ r.attempts ≤ m ∧ result.err = true ∧
    (result.codeName = some "NetworkError" ∨ result.codeName = some "Timeout")))

theorem phase_onResponse (m : Nat) (r : Relay) (result : AttemptResult) :
    (r.onResponse m result).phase = if Retryable m r result then .retrying else .calledBack := by
  unfold onResponse Retryable
  by_cases hok : result.ok <;> simp [hok]
  split_ifs <;> rfl

/-- How many more events the relay can take: two per attempt left, and one more while an
attempt is in flight. -/
def remaining (m : Nat) (r : Relay) : Nat :=
  match r.phase with
  | .inFlight => 2 * (m + 1 - r.attempts) + 1
  | .retrying => 2 * (m + 1 - r.attempts)
  | .calledBack => 0

theorem sum_callbacks_le : ∀ l : List Relay, (l.map callbacks).sum ≤ l.length
  | [] => le_rfl
  | r :: l => by
    have := sum_callbacks_le l
    have : r.callbacks ≤ 1 := by unfold callbacks; split <;> omega
    simp only [List.map_cons, List.sum_cons, List.length_cons]
    omega

theorem sum_callbacks_eq_length_iff :
    ∀ {l : List Relay}, (l.map callbacks).sum = l.length ↔ ∀ r ∈ l, r.phase = .calledBack
  | [] => by simp
  | r :: l => by
    have hle := sum_callbacks_le l
    rw [List.map_cons, List.sum_cons, List.length_cons, List.forall_mem_cons,
      ← sum_callbacks_eq_length_iff]
    by_cases hr : r.phase = .calledBack <;> simp only [callbacks, hr, if_true, if_false,
      true_and, false_and, iff_false] <;> omega

end Relay

theorem sum_map_set {α : Type} (g : α → Nat) :
    ∀ {l : List α} {i : Nat} {a : α}, l[i]? = some a → ∀ b,
      ((l.set i b).map g).sum + g a = (l.map g).sum + g b
  | [], _, _, hl, _ => by simp at hl
  | x :: l, 0, a, hl, b => by
    simp only [List.getElem?_cons_zero, Option.some.injEq] at hl
    subst hl
    simp only [List.set_cons_zero, List.map_cons, List.sum_cons]
    omega
  | x :: l, i + 1, a, hl, b => by
    rw [List.getElem?_cons_succ] at hl
    have := sum_map_set g hl b
    simp only [List.set_cons_succ, List.map_cons, List.sum_cons]
    omega

theorem map_set_of_eq {α β : Type} (g : α → β) :
    ∀ {l : List α} {i : Nat} {a b : α}, l[i]? = some a → g b = g a →
      (l.set i b).map g = l.map g
  | [], _, _, _, hl, _ => by simp at hl
  | x :: l, 0, a, b, hl, hg => by
    simp only [List.getElem?_cons_zero, Option.some.injEq] at hl
    simp [hl, hg]
  | x :: l, i + 1, a, b, hl, hg => by
    rw [List.getElem?_cons_succ] at hl
    simp only [List.set_cons_succ, List.map_cons, map_set_of_eq g hl hg]

namespace Fanout

@[simp] theorem toStart_onFinish (f : Fanout) : f.onFinish.toStart = f.toStart := by
  unfold onFinish; split <;> rfl
@[simp] theorem relays_onFinish (f : Fanout) : f.onFinish.relays = f.relays := by
  unfold onFinish; split <;> rfl
@[simp] theorem loopDone_onFinish (f : Fanout) : f.onFinish.loopDone = f.loopDone := by
  unfold onFinish; split <;> rfl
@[simp] theorem counter_onFinish (f : Fanout) : f.onFinish.counter = f.counter - 1 := by
  unfold onFinish; split <;> rfl
@[simp] theorem exitNodeKeys_onFinish (f : Fanout) : f.onFinish.exitNodeKeys = f.exitNodeKeys := by
  unfold onFinish; split <;> rfl
theorem answers_onFinish (f : Fanout) :
    f.onFinish.answers =
      f.answers ++ if f.counter - 1 = 0 then [f.exitNodeKeys.length] else [] := by
  unfold onFinish; split <;> simp_all

/-- The events a fan-out takes, with the conditions under which it takes them. -/
theorem step_cases {f f' : Fanout} {e : Fanout.Event} (hs : f.step h e = some f') :
    (∃ opts rest, e = .next ∧ f.toStart = opts :: rest ∧
      f' = { f with toStart := rest, relays := f.relays ++ [Relay.start opts] }) ∨
    (e = .next ∧ f.toStart = [] ∧ f.loopDone = false ∧
      f' = onFinish { f with loopDone := true }) ∨
    (∃ i result r, e = .respond i result ∧ f.relays[i]? = some r ∧ r.phase = .inFlight ∧
      f' = if (r.onResponse h.maxRelayAdAttempts result).phase = .calledBack then
          onFinish { f with relays := f.relays.set i (r.onResponse h.maxRelayAdAttempts result) }
        else { f with relays := f.relays.set i (r.onResponse h.maxRelayAdAttempts result) }) ∨
    (∃ i r, e = .retry i ∧ f.relays[i]? = some r ∧ r.phase = .retrying ∧
      f' = { f with relays := f.relays.set i r.tryRequest }) := by
  cases e with
  | next =>
    simp only [step] at hs
    split at hs
    · exact .inl ⟨_, _, rfl, ‹_›, (Option.some.inj hs).symm⟩
    · split at hs
      · cases hs
      · exact .inr (.inl
          ⟨rfl, ‹_›, Bool.eq_false_iff.mpr ‹_›, (Option.some.inj hs).symm⟩)
  | respond i result =>
    simp only [step] at hs
    split at hs
    · split at hs
      · exact .inr (.inr (.inl
          ⟨i, result, _, rfl, ‹_›, ‹_›, (Option.some.inj hs).symm⟩))
      · cases hs
    · cases hs
  | retry i =>
    simp only [step] at hs
    split at hs
    · split at hs
      · exact .inr (.inr (.inr ⟨i, _, rfl, ‹_›, ‹_›, (Option.some.inj hs).symm⟩))
      · cases hs
    · cases hs

/-- How one event changes one relay: not at all, by the end of its attempt, or by its retry. -/
theorem relay_step {f f' : Fanout} {e : Fanout.Event} (hs : f.step h e = some f') {i : Nat}
    {r r' : Relay} (hr : f.relays[i]? = some r) (hr' : f'.relays[i]? = some r') :
    r' = r ∨ (∃ result, e = .respond i result ∧ r.phase = .inFlight ∧
      r' = r.onResponse h.maxRelayAdAttempts result) ∨
    (e = .retry i ∧ r.phase = .retrying ∧ r' = r.tryRequest) := by
  have hi : i < f.relays.length := (List.getElem?_eq_some_iff.mp hr).1
  rcases step_cases hs with ⟨opts, rest, -, -, rfl⟩ | ⟨-, -, -, rfl⟩ |
    ⟨j, result, s, rfl, hj, hph, rfl⟩ | ⟨j, s, rfl, hj, hph, rfl⟩
  · rw [List.getElem?_append_left hi, hr] at hr'
    exact .inl (Option.some.inj hr').symm
  · simp only [relays_onFinish, hr, Option.some.injEq] at hr'
    exact .inl hr'.symm
  · have hset : (f.relays.set j (s.onResponse h.maxRelayAdAttempts result))[i]? = some r' := by
      split at hr' <;> simpa using hr'
    by_cases hij : j = i
    · subst hij
      rw [List.getElem?_set_self hi, Option.some.injEq] at hset
      rw [hj, Option.some.injEq] at hr
      subst hr
      exact .inr (.inl ⟨result, rfl, hph, hset.symm⟩)
    · rw [List.getElem?_set_ne hij, hr, Option.some.injEq] at hset
      exact .inl hset.symm
  · by_cases hij : j = i
    · subst hij
      rw [List.getElem?_set_self hi, Option.some.injEq] at hr'
      rw [hj, Option.some.injEq] at hr
      subst hr
      exact .inr (.inr ⟨rfl, hph, hr'.symm⟩)
    · rw [List.getElem?_set_ne hij, hr, Option.some.injEq] at hr'
      exact .inl hr'.symm

/-- How many more events the fan-out can take. -/
def remaining (h : HyperbahnHandler) (f : Fanout) : Nat :=
  f.toStart.length * (2 * h.maxRelayAdAttempts + 2) + (if f.loopDone then 0 else 1) +
    (f.relays.map (Relay.remaining h.maxRelayAdAttempts)).sum

end Fanout

open Fanout Relay

/-- What every state of a run of the fan-out of `plan` keeps. -/
structure FanoutInv (h : HyperbahnHandler) (plan : List RelayOpts) (f : Fanout) : Prop where
  /-- The relays started are the first buckets of the plan, in order. -/
  starts : f.relays.map (·.opts) ++ f.toStart = plan
  /-- One key per bucket. -/
  keys : f.exitNodeKeys.length = plan.length
  /-- Each relay has made at least one attempt and at most `maxRelayAdAttempts + 1`. -/
  attempts : ∀ r ∈ f.relays, 1 ≤ r.attempts ∧ r.attempts ≤ h.maxRelayAdAttempts + 1
  /-- A relay waits to retry only with an attempt left. -/
  retrying : ∀ r ∈ f.relays, r.phase = .retrying → r.attempts ≤ h.maxRelayAdAttempts
  /-- The last `onFinish()` runs after the loop. -/
  loopDone : f.loopDone = true → f.toStart = []
  /-- `counter` is `1 + exitNodeKeys.length` less the callbacks and the last `onFinish()`. -/
  counter : f.counter + ((f.relays.map callbacks).sum : Int) + (if f.loopDone then 1 else 0) =
    1 + plan.length
  /-- The requester is answered once `counter` reaches `0`. -/
  answers : f.answers = if f.counter = 0 then [plan.length] else []

namespace FanoutInv

theorem length_relays_le (hinv : FanoutInv h plan f) : f.relays.length ≤ plan.length := by
  have := congrArg List.length hinv.starts
  simp only [List.length_append, List.length_map] at this
  omega

/-- `counter` reaches `0` exactly when the loop is done and every relay has called back. -/
theorem counter_eq_zero_iff (hinv : FanoutInv h plan f) :
    f.counter = 0 ↔ f.loopDone = true ∧ ∀ r ∈ f.relays, r.phase = .calledBack := by
  have hc := hinv.counter
  have hlen := hinv.length_relays_le
  have hle := sum_callbacks_le f.relays
  rw [← sum_callbacks_eq_length_iff]
  constructor
  · intro h0
    cases hd : f.loopDone <;>
      simp only [hd, h0, Bool.false_eq_true, if_true, if_false, true_and, false_and] at hc ⊢ <;>
      omega
  · rintro ⟨hd, hs⟩
    have hts := hinv.loopDone hd
    have := congrArg List.length hinv.starts
    simp only [hts, List.length_append, List.length_map, List.length_nil] at this
    simp only [hd, if_true] at hc
    omega

theorem forall_mem_set {p : Relay → Prop} {l : List Relay} (hl : ∀ r ∈ l, p r) (i : Nat)
    {b : Relay} (hb : p b) : ∀ r ∈ l.set i b, p r :=
  fun r hr => (List.mem_or_eq_of_mem_set hr).elim (hl r) (· ▸ hb)

/-- No answer has been sent while the loop or a relay is still going. -/
theorem answers_eq_nil (hinv : FanoutInv h plan f)
    (hgoing : ¬(f.loopDone = true ∧ ∀ r ∈ f.relays, r.phase = .calledBack)) :
    f.answers = [] := by
  rw [hinv.answers, if_neg (mt hinv.counter_eq_zero_iff.mp hgoing)]

/-- The loop starts the next `sendRelay`. -/
theorem start (hinv : FanoutInv h plan f) {opts : RelayOpts} {rest : List RelayOpts}
    (ht : f.toStart = opts :: rest) :
    FanoutInv h plan { f with toStart := rest, relays := f.relays ++ [Relay.start opts] } where
  starts := by
    rw [← hinv.starts, ht]
    simp only [List.map_append, List.map_singleton, opts_start, List.append_assoc,
      List.singleton_append]
  keys := hinv.keys
  attempts r hr := by
    rcases List.mem_append.mp hr with hr | hr
    · exact hinv.attempts r hr
    · rw [List.mem_singleton.mp hr]
      exact ⟨le_rfl, Nat.le_add_left _ _⟩
  retrying r hr := by
    rcases List.mem_append.mp hr with hr | hr
    · exact hinv.retrying r hr
    · rw [List.mem_singleton.mp hr, phase_start]
      intro h
      cases h
  loopDone hd := absurd (hinv.loopDone hd) (by rw [ht]; exact List.cons_ne_nil _ _)
  counter := by
    have h₀ : (Relay.start opts).callbacks = 0 := rfl
    simp only [List.map_append, List.map_singleton, List.sum_append, List.sum_singleton, h₀,
      Nat.add_zero]
    exact hinv.counter
  answers := hinv.answers

/-- `onFinish()` after a step that adds one to the callbacks or runs the last `onFinish()`. -/
theorem of_onFinish {g : Fanout} (hstarts : g.relays.map (·.opts) ++ g.toStart = plan)
    (hkeys : g.exitNodeKeys.length = plan.length)
    (hatt : ∀ r ∈ g.relays, 1 ≤ r.attempts ∧ r.attempts ≤ h.maxRelayAdAttempts + 1)
    (hret : ∀ r ∈ g.relays, r.phase = .retrying → r.attempts ≤ h.maxRelayAdAttempts)
    (hld : g.loopDone = true → g.toStart = [])
    (hcounter : g.counter + ((g.relays.map callbacks).sum : Int) + (if g.loopDone then 1 else 0) =
      2 + plan.length)
    (hans : g.answers = []) : FanoutInv h plan g.onFinish where
  starts := by rw [relays_onFinish, toStart_onFinish]; exact hstarts
  keys := by rw [exitNodeKeys_onFinish]; exact hkeys
  attempts := by rw [relays_onFinish]; exact hatt
  retrying := by rw [relays_onFinish]; exact hret
  loopDone := by rw [loopDone_onFinish, toStart_onFinish]; exact hld
  counter := by rw [counter_onFinish, relays_onFinish, loopDone_onFinish]; omega
  answers := by rw [answers_onFinish, hans, List.nil_append, counter_onFinish, hkeys]

/-- The `onFinish()` after the loop. -/
theorem finishLoop (hinv : FanoutInv h plan f) (ht : f.toStart = []) (hd : f.loopDone = false) :
    FanoutInv h plan (onFinish { f with loopDone := true }) :=
  of_onFinish hinv.starts hinv.keys hinv.attempts hinv.retrying (fun _ => ht)
    (by
      have := hinv.counter
      simp only [hd, Bool.false_eq_true, if_false, if_true] at this ⊢
      omega)
    (hinv.answers_eq_nil fun h0 => by simp only [hd, Bool.false_eq_true, false_and] at h0)

theorem remaining_onResponse_lt {m : Nat} {r : Relay} (hph : r.phase = .inFlight)
    (result : AttemptResult) : (r.onResponse m result).remaining m < r.remaining m := by
  by_cases hret : Retryable m r result <;>
    simp only [Relay.remaining, phase_onResponse, hret, if_true, if_false, hph,
      attempts_onResponse] <;> omega

/-- The attempt of a relay in flight ends. -/
theorem respond (hinv : FanoutInv h plan f) {i : Nat} {r : Relay} (hr : f.relays[i]? = some r)
    (hph : r.phase = .inFlight) (result : AttemptResult) :
    FanoutInv h plan (if (r.onResponse h.maxRelayAdAttempts result).phase = .calledBack then
        onFinish { f with relays := f.relays.set i (r.onResponse h.maxRelayAdAttempts result) }
      else { f with relays := f.relays.set i (r.onResponse h.maxRelayAdAttempts result) }) := by
  have hmem := List.getElem?_mem hr
  have hstarts : (f.relays.set i (r.onResponse h.maxRelayAdAttempts result)).map (·.opts) ++
      f.toStart = plan := by rw [map_set_of_eq _ hr (opts_onResponse _ _ _)]; exact hinv.starts
  have hatt := forall_mem_set hinv.attempts i (b := r.onResponse h.maxRelayAdAttempts result)
    (by rw [attempts_onResponse]; exact hinv.attempts r hmem)
  have hsum := sum_map_set callbacks hr (r.onResponse h.maxRelayAdAttempts result)
  have hc0 : callbacks r = 0 := by rw [callbacks, hph]; rfl
  have hcounter := hinv.counter
  rw [phase_onResponse]
  by_cases hret : Retryable h.maxRelayAdAttempts r result
  · have hc1 : callbacks (r.onResponse h.maxRelayAdAttempts result) = 0 := by
      rw [callbacks, phase_onResponse, if_pos hret]; rfl
    rw [if_pos hret, if_neg RelayPhase.noConfusion]
    exact { starts := hstarts
            keys := hinv.keys
            attempts := hatt
            retrying := forall_mem_set hinv.retrying i fun _ => by
              rw [attempts_onResponse]; exact hret.2.1
            loopDone := hinv.loopDone
            counter := by simp only at hcounter ⊢; omega
            answers := hinv.answers }
  · have hc1 : callbacks (r.onResponse h.maxRelayAdAttempts result) = 1 := by
      rw [callbacks, phase_onResponse, if_neg hret]; rfl
    rw [if_neg hret, if_pos rfl]
    exact of_onFinish hstarts hinv.keys hatt
      (forall_mem_set hinv.retrying i fun hr' => by
        rw [phase_onResponse, if_neg hret] at hr'; cases hr')
      hinv.loopDone (by simp only at hcounter ⊢; omega)
      (hinv.answers_eq_nil fun h0 => by rw [h0.2 r hmem] at hph; cases hph)

/-- The retry timer of a waiting relay fires. -/
theorem retry (hinv : FanoutInv h plan f) {i : Nat} {r : Relay} (hr : f.relays[i]? = some r)
    (hph : r.phase = .retrying) :
    FanoutInv h plan { f with relays := f.relays.set i r.tryRequest } where
  starts := by rw [map_set_of_eq _ hr (opts_tryRequest r)]; exact hinv.starts
  keys := hinv.keys
  attempts := forall_mem_set hinv.attempts i (by
    have := hinv.retrying r (List.getElem?_mem hr) hph
    rw [attempts_tryRequest]
    omega)
  retrying := forall_mem_set hinv.retrying i fun h => by rw [phase_tryRequest] at h; cases h
  loopDone := hinv.loopDone
  counter := by
    have hsum := sum_map_set callbacks hr r.tryRequest
    have hc0 : callbacks r = 0 := by rw [callbacks, hph]; rfl
    have hc1 : callbacks r.tryRequest = 0 := rfl
    have := hinv.counter
    simp only at this ⊢
    omega
  answers := hinv.answers

/-- Every event keeps the invariant. -/
theorem step (hinv : FanoutInv h plan f) {e : Fanout.Event} {f' : Fanout}
    (hs : f.step h e = some f') : FanoutInv h plan f' := by
  rcases step_cases hs with ⟨opts, rest, -, ht, rfl⟩ | ⟨-, ht, hd, rfl⟩ |
    ⟨i, result, r, -, hr, hph, rfl⟩ | ⟨i, r, -, hr, hph, rfl⟩
  · exact hinv.start ht
  · exact hinv.finishLoop ht hd
  · exact hinv.respond hr hph result
  · exact hinv.retry hr hph

/-- Every event lowers the count of events left. -/
theorem remaining_lt (hinv : FanoutInv h plan f) {e : Fanout.Event} {f' : Fanout}
    (hs : f.step h e = some f') : f'.remaining h < f.remaining h := by
  rcases step_cases hs with ⟨opts, rest, -, ht, rfl⟩ | ⟨-, ht, hd, rfl⟩ |
    ⟨i, result, r, -, hr, hph, rfl⟩ | ⟨i, r, -, hr, hph, rfl⟩
  · simp only [Fanout.remaining, ht, List.length_cons, List.map_append, List.sum_append,
      List.map_singleton, List.sum_singleton, Relay.remaining, phase_start, attempts_start,
      Nat.add_sub_cancel, Nat.add_mul, Nat.one_mul]
    omega
  · simp only [Fanout.remaining, toStart_onFinish, relays_onFinish, loopDone_onFinish, hd,
      if_true, if_false, Bool.false_eq_true]
    omega
  · have hsum := sum_map_set (Relay.remaining h.maxRelayAdAttempts) hr
      (r.onResponse h.maxRelayAdAttempts result)
    have hlt := remaining_onResponse_lt (m := h.maxRelayAdAttempts) hph result
    split <;> simp only [Fanout.remaining, toStart_onFinish, loopDone_onFinish,
      relays_onFinish] <;> omega
  · have hsum := sum_map_set (Relay.remaining h.maxRelayAdAttempts) hr r.tryRequest
    have := hinv.retrying r (List.getElem?_mem hr) hph
    simp only [Fanout.remaining, Relay.remaining, hph, phase_tryRequest, attempts_tryRequest]
      at hsum ⊢
    omega

/-- Every run keeps the invariant, and takes no more events than were left. -/
theorem run {f : Fanout} (hinv : FanoutInv h plan f) {events : List Fanout.Event} {f' : Fanout}
    (hr : f.run h events = some f') :
    FanoutInv h plan f' ∧ events.length + f'.remaining h ≤ f.remaining h := by
  induction events generalizing f with
  | nil =>
    cases Option.some.inj hr
    exact ⟨hinv, by simp⟩
  | cons e events ih =>
    obtain ⟨f₁, hs, hr⟩ := Option.bind_eq_some.mp hr
    have hlt := hinv.remaining_lt hs
    obtain ⟨hinv', hle⟩ := ih (hinv.step hs) hr
    exact ⟨hinv', by simp only [List.length_cons]; omega⟩


end FanoutInv

/-- A state where no event can happen has started every relay, run the last `onFinish()`, and
every relay has called back. -/
theorem Fanout.done_of_stuck {f : Fanout} (hstuck : ∀ e, f.step h e = none) :
    f.toStart = [] ∧ f.loopDone = true ∧ ∀ r ∈ f.relays, r.phase = .calledBack := by
  have ht : f.toStart = [] := by
    cases ht : f.toStart with
    | nil => rfl
    | cons o rest => simpa [Fanout.step, ht] using hstuck .next
  have hd : f.loopDone = true := by
    by_contra hd
    simpa [Fanout.step, ht, hd] using hstuck .next
  refine ⟨ht, hd, fun r hr => ?_⟩
  obtain ⟨i, hi⟩ := List.mem_iff_getElem?.mp hr
  cases hph : r.phase with
  | inFlight => simpa [Fanout.step, hi, hph] using hstuck (.respond i ⟨false, none, true⟩)
  | retrying => simpa [Fanout.step, hi, hph] using hstuck (.retry i)
  | calledBack => rfl

/-- What holds at every state of a run of the fan-out of `plan`. -/
structure FanoutFacts (h : HyperbahnHandler) (plan : List RelayOpts) (f : Fanout) : Prop where
  /-- The relays started are the first buckets of the plan, in order. -/
  started : f.relays.map (·.opts) <+: plan
  /-- No relay has made more than `maxRelayAdAttempts + 1` attempts. -/
  attempts : ∀ r ∈ f.relays, r.attempts ≤ h.maxRelayAdAttempts + 1
  /-- The requester has been answered at most once, and only when every bucket has been relayed
  and every relay has called back, with the number of buckets. -/
  answered : f.answers = [] ∨ (f.answers = [plan.length] ∧ f.relays.map (·.opts) = plan ∧
    ∀ r ∈ f.relays, r.phase = .calledBack)
  /-- From here, an event retries a relay only when its timer is pending, makes it wait for one
  only when its attempt ended in a network error or a timeout with attempts left, and never
  changes a relay that has called back. -/
  steps : ∀ {e f' i r r'}, f.step h e = some f' → f.relays[i]? = some r →
    f'.relays[i]? = some r' →
    (r'.attempts ≠ r.attempts → e = .retry i ∧ r.phase = .retrying) ∧
    (r.phase ≠ .retrying → r'.phase = .retrying →
      ∃ result, e = .respond i result ∧ Retryable h.maxRelayAdAttempts r result) ∧
    (r.phase = .calledBack → r' = r)
  /-- When no event can happen, every bucket has been relayed, every relay has called back, and
  the requester has been answered once. -/
  final : (∀ e, f.step h e = none) →
    f.answers = [plan.length] ∧ f.relays.map (·.opts) = plan ∧
      ∀ r ∈ f.relays, r.phase = .calledBack

theorem FanoutInv.facts (hinv : FanoutInv h plan f) : FanoutFacts h plan f where
  started := ⟨f.toStart, hinv.starts⟩
  attempts r hr := (hinv.attempts r hr).2
  answered := by
    rw [hinv.answers]
    split
    · obtain ⟨hd, hall⟩ := hinv.counter_eq_zero_iff.mp ‹_›
      have hstarts := hinv.starts
      rw [hinv.loopDone hd, List.append_nil] at hstarts
      exact .inr ⟨rfl, hstarts, hall⟩
    · exact .inl rfl
  steps hs hr hr' := by
    rcases relay_step hs hr hr' with rfl | ⟨result, rfl, hph, rfl⟩ | ⟨rfl, hph, rfl⟩
    · exact ⟨fun h => absurd rfl h, fun h₁ h₂ => absurd h₂ h₁, fun _ => rfl⟩
    · refine ⟨fun h => absurd (attempts_onResponse _ _ _) h, fun _ h₂ => ⟨result, rfl, ?_⟩,
        fun h => by simp [h] at hph⟩
      rw [phase_onResponse] at h₂
      split at h₂
      · assumption
      · cases h₂
    · exact ⟨fun _ => ⟨rfl, hph⟩, fun h => absurd hph h, fun h => by simp [h] at hph⟩
  final hstuck := by
    obtain ⟨ht, hd, hall⟩ := Fanout.done_of_stuck hstuck
    have hstarts := hinv.starts
    rw [ht, List.append_nil] at hstarts
    exact ⟨by rw [hinv.answers, if_pos (hinv.counter_eq_zero_iff.mpr ⟨hd, hall⟩)], hstarts,
      hall⟩

end Run

/-! ## The plan of `sendRelays` -/

/-- With no exit host named after a property of `Object.prototype`, `sendRelays` plans one
relay per distinct exit host of the named services, with its bucket, and starts the fan-out in
a state of the invariant with `1 + (2 * maxRelayAdAttempts + 2)` events per bucket left. -/
theorem sendRelays_plan (h : HyperbahnHandler) (remoteName : String) (services : List Service)
    (endpoint : String) (hp : ∀ e ∈ services, e.serviceName ≠ "" →
      ∀ x ∈ h.egressNodes.exitsFor e.serviceName, x ∉ objectPrototypeKeys) :
    ∃ f, sendRelays h remoteName services endpoint = .ok f ∧
      RelaysPlanned h.egressNodes remoteName services endpoint f.toStart ∧
      FanoutInv h f.toStart f ∧
      f.remaining h = 1 + f.toStart.length * (2 * h.maxRelayAdAttempts + 2) := by
  obtain ⟨b, hb, hget⟩ := bucketServices_ok h.egressNodes remoteName h.exitsFor_nodup ∅ hp
  have hmap : (b.keys.map fun x => (⟨x, (b.get x).getD [], endpoint⟩ : RelayOpts)).map
      (·.hostPort) = b.keys := by rw [List.map_map]; exact List.map_id _
  cases hs : sendRelays h remoteName services endpoint with
  | error e => simp [sendRelays, hb] at hs
  | ok f =>
    simp [sendRelays, hb] at hs
    subst hs
    refine ⟨_, rfl, ⟨?_, fun x => ?_, fun o ho => ?_⟩,
      ⟨by simp, by simp, by simp, by simp, by simp, by simp, by simp; omega⟩, by
        simp [Fanout.remaining]; omega⟩
    · rw [hmap]
      exact JsMap.keys_nodup b
    · rw [hmap, JsMap.mem_keys, JsMap.contains,
        ← bucketFor_ne_nil_iff h.egressNodes remoteName services x, (hget x).2]
      simp [JsMap.get_empty]
    · obtain ⟨x, -, rfl⟩ := List.mem_map.mp ho
      simpa [JsMap.get_empty] using (hget x).1

/-- No key of the object is named after a property of `Object.prototype`. -/
def NoPrototypeKeys (b : JsMap (List Service)) : Prop :=
  ∀ k ∈ objectPrototypeKeys, b.get k = none

theorem pushService_of_noPrototypeKeys (service : Service) {b : JsMap (List Service)}
    (hb : NoPrototypeKeys b) (x : String) :
    (x ∈ objectPrototypeKeys ∧
      pushService service b x = .error "TypeError: relayReq.push is not a function") ∨
    (x ∉ objectPrototypeKeys ∧
      ∃ b', pushService service b x = .ok b' ∧ NoPrototypeKeys b') := by
  by_cases hx : x ∈ objectPrototypeKeys
  · exact .inl ⟨hx, by simp [pushService, hb x hx, hx]⟩
  · refine .inr ⟨hx, _, pushService_ok service b hx, fun k hk => ?_⟩
    rw [JsMap.get_set, if_neg fun (h : k = x) => hx (h ▸ hk), hb k hk]

/-- The inner loop either throws, or keeps the object free of such keys and met none. -/
theorem foldlM_pushService_of_noPrototypeKeys (service : Service) :
    ∀ (exits : List String) {b : JsMap (List Service)}, NoPrototypeKeys b →
      exits.foldlM (pushService service) b = .error "TypeError: relayReq.push is not a function" ∨
      ∃ b', exits.foldlM (pushService service) b = .ok b' ∧ NoPrototypeKeys b' ∧
        ∀ x ∈ exits, x ∉ objectPrototypeKeys
  | [], b, hb => .inr ⟨b, rfl, hb, by simp⟩
  | x :: xs, b, hb => by
    rw [List.foldlM_cons]
    rcases pushService_of_noPrototypeKeys service hb x with
      ⟨-, he⟩ | ⟨hx, b₁, hb₁, hc₁⟩
    · exact .inl (by rw [he]; rfl)
    · rw [hb₁]
      rcases foldlM_pushService_of_noPrototypeKeys service xs hc₁ with
        he | ⟨b', hb', hc', hxs⟩
      · exact .inl he
      · exact .inr ⟨b', hb', hc', by simpa [hx] using hxs⟩

theorem bucketServices_throws (egressNodes : Ring) (remoteName : String) :
    ∀ {services : List Service} {b : JsMap (List Service)}, NoPrototypeKeys b →
      (∃ e ∈ services, e.serviceName ≠ "" ∧
        ∃ x ∈ egressNodes.exitsFor e.serviceName, x ∈ objectPrototypeKeys) →
      bucketServices egressNodes remoteName services b =
        .error "TypeError: relayReq.push is not a function"
  | [], _, _, ⟨_, he, _⟩ => absurd he (List.not_mem_nil _)
  | e :: services, b, hb, ⟨e', he', hne, hx⟩ => by
    by_cases he : e.serviceName = ""
    · have : e' ∈ services :=
        (List.mem_cons.mp he').resolve_left fun (h : e' = e) => hne (h ▸ he)
      simpa [bucketServices, he] using
        bucketServices_throws egressNodes remoteName hb ⟨e', this, hne, hx⟩
    · simp only [bucketServices, he, if_false]
      rcases foldlM_pushService_of_noPrototypeKeys { e with hostPort := some remoteName }
        (egressNodes.exitsFor e.serviceName) hb with hthrow | ⟨b', hb', hc', hall⟩
      · rw [hthrow]
      · have : e' ∈ services := (List.mem_cons.mp he').resolve_left fun h => by
          subst h
          obtain ⟨x, hx, hpx⟩ := hx
          exact hall x hx hpx
        rw [hb']
        exact bucketServices_throws egressNodes remoteName hc' ⟨e', this, hne, hx⟩

/-- A named service with an exit host named after a property of `Object.prototype` makes
`sendRelays` throw before it starts any relay, so the requester is never answered. -/
theorem sendRelays_throws_of_prototype_exit (h : HyperbahnHandler) (remoteName : String)
    (services : List Service) (endpoint : String)
    (hx : ∃ e ∈ services, e.serviceName ≠ "" ∧
      ∃ x ∈ h.egressNodes.exitsFor e.serviceName, x ∈ objectPrototypeKeys) :
    sendRelays h remoteName services endpoint =
      .error "TypeError: relayReq.push is not a function" := by
  simp [sendRelays, bucketServices_throws h.egressNodes remoteName
    (fun k _ => JsMap.get_empty k) hx]

theorem sendRelays_throws_of_prototype_exit_constructor :
    (∃ e ∈ [(⟨"s", none⟩ : Service)], e.serviceName ≠ "" ∧
      ∃ x ∈ (⟨fun _ => ["constructor"]⟩ : Ring).exitsFor e.serviceName,
        x ∈ objectPrototypeKeys) ∧
    sendRelays (HyperbahnHandler.create ⟨fun _ => ["constructor"]⟩
        (fun _ => List.nodup_singleton _) none) "w" [⟨"s", none⟩] "relay-ad" =
      .error "TypeError: relayReq.push is not a function" :=
  ⟨by decide, sendRelays_throws_of_prototype_exit _ _ _ _ (by decide)⟩

/-! ## The whole advertisement -/

/-- With no exit host named after a property of `Object.prototype`, `sendRelays` plans one relay
per distinct exit host with its bucket, and every run of the fan-out, whatever the order in
which attempts end and retry timers fire, takes at most `1 + (2 * maxRelayAdAttempts + 2)`
events per bucket and keeps `FanoutFacts`. -/
theorem sendRelays_relays_once (h : HyperbahnHandler) (remoteName : String)
    (services : List Service) (endpoint : String) (hp : ∀ e ∈ services, e.serviceName ≠ "" →
      ∀ x ∈ h.egressNodes.exitsFor e.serviceName, x ∉ objectPrototypeKeys) :
    ∃ f₀, sendRelays h remoteName services endpoint = .ok f₀ ∧
      RelaysPlanned h.egressNodes remoteName services endpoint f₀.toStart ∧
      ∀ events f, f₀.run h events = some f →
        events.length ≤ 1 + f₀.toStart.length * (2 * h.maxRelayAdAttempts + 2) ∧
        FanoutFacts h f₀.toStart f := by
  obtain ⟨f₀, hs, hplan, hinv, hrem⟩ := sendRelays_plan h remoteName services endpoint hp
  refine ⟨f₀, hs, hplan, fun events f hr => ?_⟩
  obtain ⟨hinv', hle⟩ := hinv.run hr
  exact ⟨by omega, hinv'.facts⟩

/-- An advertisement of `s1`, an unnamed service and `s2`, whose exits overlap in `y`. -/
theorem sendRelays_relays_once_overlapping :
    (∀ e ∈ [(⟨"s1", none⟩ : Service), ⟨"", none⟩, ⟨"s2", none⟩], e.serviceName ≠ "" →
      ∀ x ∈ HyperbahnHandler.overlapping.egressNodes.exitsFor e.serviceName,
        x ∉ objectPrototypeKeys) ∧
    ∃ f₀, sendRelays HyperbahnHandler.overlapping "w" [⟨"s1", none⟩, ⟨"", none⟩, ⟨"s2", none⟩]
        "relay-ad" = .ok f₀ ∧
      RelaysPlanned HyperbahnHandler.overlapping.egressNodes "w"
        [⟨"s1", none⟩, ⟨"", none⟩, ⟨"s2", none⟩] "relay-ad" f₀.toStart ∧
      ∀ events f, f₀.run HyperbahnHandler.overlapping events = some f →
        events.length ≤ 1 + f₀.toStart.length *
          (2 * HyperbahnHandler.overlapping.maxRelayAdAttempts + 2) ∧
        FanoutFacts HyperbahnHandler.overlapping f₀.toStart f :=
  ⟨by decide, sendRelays_relays_once _ _ _ _ (by decide)⟩

/-- An advertisement of a service whose one exit host is named `constructor` throws in the loop
that buckets the services: no relay is started and the requester is never answered. -/
theorem handleAdvertise_throws_at_constructor_exit :
    handleAdvertise (HyperbahnHandler.create ⟨fun _ => ["constructor"]⟩
        (fun _ => List.nodup_singleton _) none) "10.0.0.2:4040" [⟨"s", none⟩] =
      .error "TypeError: relayReq.push is not a function" :=
  rfl

end Hyperbahn
