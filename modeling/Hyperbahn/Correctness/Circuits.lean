import Hyperbahn.Circuits

/-!
# The circuit registry lists each circuit once

The registry of `circuits.js` is a store: `getCircuitForRequest` makes the circuit of a request
on first lookup, `updateServices` drops whole services after a membership change, and
`getCircuitTuples` lists the names of the circuits it holds. What it is for is a set of names,
each circuit made once: `Call.tuples` is that abstract store, the names of the circuits made so
far, oldest first.

The three levels are keyed by `'$'` followed by the names, and a request names its caller
`cn || 'no-cn'`, never the empty string, so the keys of a circuit are fixed by its names
(`KeyedByNames`). That makes the listing exact: after every run of requests and membership
changes from the empty registry, `getCircuitTuples` lists each circuit once, and its tuples are
the abstract store's up to order (`getCircuitTuples_run`). A direct `getCircuit` with the empty
caller name breaks the key, since its circuit is named `no-cn` under the key `'$'`: the
circuits of `""` and of `"no-cn"` are then two circuits with one name.

## Main definitions

* `Circuits.lookup`: the circuit under three keys;
* `Circuits.KeyedByNames`: every circuit sits under the keys of its own names;
* `Circuits.Call.tuples`: the abstract store;
* `Circuits.Refines`: the registry holds exactly the circuits of the abstract store.

## Main results

* `Circuits.Refines.apply`: every call keeps the refinement, and so does every run
  (`Circuits.Refines.foldl`);
* `Circuits.Refines.mem_getCircuitTuples`: under the refinement, `getCircuitTuples` lists the
  circuits of the abstract store;
* `Circuits.getCircuitTuples_run`: after every run, `getCircuitTuples` has no duplicate and is a
  permutation of the abstract store.
-/

namespace Hyperbahn

namespace Circuits

/-- The circuit under the keys `ks`, `kc` and `ke` of the three levels. -/
def lookup (c : Circuits) (ks kc ke : String) : Option Circuit :=
  ((c.circuitsByServiceName.get ks).bind (·.get kc)).bind (·.get ke)

/-- Every circuit sits under the keys of its own names. -/
def KeyedByNames (c : Circuits) : Prop :=
  ∀ ks kc ke circuit, c.lookup ks kc ke = some circuit →
    ks = "$" ++ circuit.serviceName ∧ kc = "$" ++ circuit.callerName ∧
      ke = "$" ++ circuit.endpointName

/-- The keys `"$" ++ name` tell the names apart. -/
theorem dollar_append_inj {a b : String} : "$" ++ a = "$" ++ b ↔ a = b := by
  refine ⟨fun h => String.ext ?_, fun h => h ▸ rfl⟩
  simpa using congrArg String.data h

theorem get_getD_empty {β : Type} (o : Option (JsMap β)) (k : String) :
    (o.getD ∅).get k = o.bind (·.get k) := by
  cases o <;> rfl

/-! ## What one call does to the store -/

theorem lookup_eq_get (c : Circuits) (ks kc ke : String) :
    c.lookup ks kc ke = ((((c.circuitsByServiceName.get ks).getD ∅).get kc).getD ∅).get ke := by
  simp only [lookup, get_getD_empty]

/-- `getCircuit` returns the circuit stored under the keys of its names, or the one it makes. -/
theorem getCircuit_fst (c : Circuits) (callerName serviceName endpointName : String) :
    (c.getCircuit callerName serviceName endpointName).1 =
      (c.lookup ("$" ++ serviceName) ("$" ++ callerName) ("$" ++ endpointName)).getD
        (newCircuit callerName serviceName endpointName) := by
  unfold getCircuit
  dsimp only
  rw [← lookup_eq_get]
  cases c.lookup ("$" ++ serviceName) ("$" ++ callerName) ("$" ++ endpointName) <;> rfl
/-- `getCircuit` stores its circuit under the keys of its names and changes nothing else. -/
theorem lookup_getCircuit (c : Circuits) (callerName serviceName endpointName ks kc ke : String) :
    (c.getCircuit callerName serviceName endpointName).2.lookup ks kc ke =
      if ks = "$" ++ serviceName ∧ kc = "$" ++ callerName ∧ ke = "$" ++ endpointName then
        some (c.getCircuit callerName serviceName endpointName).1
      else c.lookup ks kc ke := by
  rw [getCircuit_fst]
  unfold getCircuit
  dsimp only
  rw [← lookup_eq_get]
  cases h : c.lookup ("$" ++ serviceName) ("$" ++ callerName) ("$" ++ endpointName) with
  | some circuit =>
    split_ifs with hk
    · obtain ⟨rfl, rfl, rfl⟩ := hk
      simpa using h
    · rfl
  | none =>
    simp only [lookup, JsMap.get_set, get_getD_empty, Option.getD_none] at h ⊢
    by_cases hs : ks = "$" ++ serviceName <;> by_cases hc : kc = "$" ++ callerName <;>
      by_cases he : ke = "$" ++ endpointName <;> simp [hs, hc, he, h, get_getD_empty]

/-- `updateServices` keeps the circuits of a service key exactly when the ring names this relay
an exit for that key. -/
theorem lookup_updateServices (isExitFor : String → Bool) (c : Circuits) (ks kc ke : String) :
    (c.updateServices isExitFor).lookup ks kc ke =
      if isExitFor ks then c.lookup ks kc ke else none := by
  rw [updateServices, lookup, get_foldl_updateService]
  cases hx : isExitFor ks
  · by_cases hk : ks ∈ c.circuitsByServiceName.keys
    · simp [hk]
    · rw [JsMap.mem_keys, JsMap.contains, Option.not_isSome_iff_eq_none] at hk
      simp [hk]
  · simp [lookup]

/-! ## The listing -/

/-- The tuples a loop of `collectEach` pushes when `collect` pushes `g value`. -/
def collected {β T : Type} (table : JsMap β) (g : β → List T) : List T :=
  table.keys.flatMap fun k => ((table.get k).map g).getD []

theorem collectEach_eq {β : Type} (table : JsMap β)
    {collect : β → List (String × String × String) → List (String × String × String)}
    {g : β → List (String × String × String)} (hcollect : ∀ v ts, collect v ts = ts ++ g v)
    (ts : List (String × String × String)) :
    collectEach table collect ts = ts ++ collected table g := by
  obtain rfl : collect = fun v ts => ts ++ g v := funext fun v => funext (hcollect v)
  unfold collectEach collected
  induction table.keys generalizing ts with
  | nil => simp
  | cons k l ih => cases hk : table.get k <;> simp [hk, ih]

theorem mem_getD_map {β T : Type} {o : Option β} {g : β → List T} {t : T} :
    t ∈ (o.map g).getD [] ↔ ∃ v, o = some v ∧ t ∈ g v := by
  cases o <;> simp

theorem mem_collected {β T : Type} {table : JsMap β} {g : β → List T} {t : T} :
    t ∈ collected table g ↔ ∃ k v, table.get k = some v ∧ t ∈ g v := by
  simp only [collected, List.mem_flatMap, JsMap.mem_keys, JsMap.contains, mem_getD_map]
  constructor
  · rintro ⟨k, -, v, hk, ht⟩
    exact ⟨k, v, hk, ht⟩
  · rintro ⟨k, v, hk, ht⟩
    exact ⟨k, by simp [hk], v, hk, ht⟩

/-- A listing has no duplicate when each value's tuples have none and the tuples of the values
under two keys meet only when the keys are one. -/
theorem nodup_collected {β T : Type} {table : JsMap β} {g : β → List T}
    (hg : ∀ k v, table.get k = some v → (g v).Nodup)
    (hdisj : ∀ k k' v v' t, table.get k = some v → table.get k' = some v' → t ∈ g v →
      t ∈ g v' → k = k') :
    (collected table g).Nodup := by
  refine List.nodup_flatMap.mpr ⟨fun k _ => ?_, (table.keys_nodup).pairwise_of_forall_ne ?_⟩
  · cases hk : table.get k with
    | none => exact List.nodup_nil
    | some v => exact hg k v hk
  · intro k _ k' _ hne t ht ht'
    obtain ⟨v, hk, ht⟩ := mem_getD_map.mp ht
    obtain ⟨v', hk', ht'⟩ := mem_getD_map.mp ht'
    exact hne (hdisj k k' v v' t hk hk' ht ht')

/-- The tuples of each level, from the top. -/
theorem getCircuitTuples_eq (c : Circuits) :
    c.getCircuitTuples = collected c.circuitsByServiceName fun byCaller =>
      collected byCaller fun byEndpoint => collected byEndpoint fun circuit => [circuit.tuple] := by
  have hend : ∀ (m : JsMap Circuit) ts, EndpointCircuits.collectCircuitTuples m ts =
      ts ++ collected m fun circuit => [circuit.tuple] :=
    fun m ts => collectEach_eq m (fun _ _ => rfl) ts
  have hserv : ∀ (m : JsMap (JsMap Circuit)) ts, ServiceCircuits.collectCircuitTuples m ts =
      ts ++ collected m fun byEndpoint => collected byEndpoint fun circuit => [circuit.tuple] :=
    fun m ts => collectEach_eq m hend ts
  exact (collectEach_eq _ hserv []).trans (List.nil_append _)

theorem mem_getCircuitTuples {c : Circuits} {t : String × String × String} :
    t ∈ c.getCircuitTuples ↔ ∃ ks kc ke circuit, c.lookup ks kc ke = some circuit ∧
      circuit.tuple = t := by
  simp only [getCircuitTuples_eq, mem_collected, List.mem_singleton]
  constructor
  · rintro ⟨ks, byCaller, hs, kc, byEndpoint, hc, ke, circuit, he, rfl⟩
    exact ⟨ks, kc, ke, circuit, by simp [lookup, hs, hc, he], rfl⟩
  · rintro ⟨ks, kc, ke, circuit, h, rfl⟩
    simp only [lookup, Option.bind_eq_some] at h
    obtain ⟨byEndpoint, ⟨byCaller, hs, hc⟩, he⟩ := h
    exact ⟨ks, byCaller, hs, kc, byEndpoint, hc, ke, circuit, he, rfl⟩

/-- When every circuit sits under the keys of its names, `getCircuitTuples` lists each once. -/
theorem nodup_getCircuitTuples {c : Circuits} (h : KeyedByNames c) :
    c.getCircuitTuples.Nodup := by
  rw [getCircuitTuples_eq]
  have hkeys : ∀ ks byCaller kc byEndpoint ke circuit,
      c.circuitsByServiceName.get ks = some byCaller → byCaller.get kc = some byEndpoint →
      byEndpoint.get ke = some circuit → ks = "$" ++ circuit.tuple.2.1 ∧
        kc = "$" ++ circuit.tuple.1 ∧ ke = "$" ++ circuit.tuple.2.2 :=
    fun ks _ kc _ ke circuit hs hc he => h ks kc ke circuit (by simp [lookup, hs, hc, he])
  refine nodup_collected (fun ks byCaller hs => nodup_collected
    (fun kc byEndpoint hc => nodup_collected (fun _ _ _ => List.nodup_singleton _) ?_) ?_) ?_
  · intro ke ke' circuit circuit' t he he' ht ht'
    rw [List.mem_singleton] at ht ht'
    rw [(hkeys _ _ _ _ _ _ hs hc he).2.2, (hkeys _ _ _ _ _ _ hs hc he').2.2, ← ht, ← ht']
  · intro kc kc' byEndpoint byEndpoint' t hc hc' ht ht'
    simp only [mem_collected, List.mem_singleton] at ht ht'
    obtain ⟨ke, circuit, he, rfl⟩ := ht
    obtain ⟨ke', circuit', he', ht'⟩ := ht'
    rw [(hkeys _ _ _ _ _ _ hs hc he).2.1, (hkeys _ _ _ _ _ _ hs hc' he').2.1, ht']
  · intro ks ks' byCaller byCaller' t hs hs' ht ht'
    simp only [mem_collected, List.mem_singleton] at ht ht'
    obtain ⟨kc, byEndpoint, hc, ke, circuit, he, rfl⟩ := ht
    obtain ⟨kc', byEndpoint', hc', ke', circuit', he', ht'⟩ := ht'
    rw [(hkeys _ _ _ _ _ _ hs hc he).1, (hkeys _ _ _ _ _ _ hs' hc' he').1, ht']

/-! ## The abstract store -/

/-- What the registry is for: the names of the circuits made so far, oldest first. A request
with a service name adds its names unless they are there; a membership change drops the names
whose service key the ring no longer names this relay an exit for. -/
def Call.tuples (ts : List (String × String × String)) : Call → List (String × String × String)
  | .getCircuitForRequest _ req =>
    if req.serviceName = "" ∨ (req.callerName, req.serviceName, req.arg1) ∈ ts then ts
    else ts ++ [(req.callerName, req.serviceName, req.arg1)]
  | .updateServices isExitFor => ts.filter fun t => isExitFor ("$" ++ t.2.1)

/-- The registry holds exactly the circuits of the abstract store `ts`, each under the keys of
its names. -/
structure Refines (c : Circuits) (ts : List (String × String × String)) : Prop where
  /-- Every circuit sits under the keys of its names. -/
  keyed : KeyedByNames c
  /-- The store names each circuit once. -/
  nodup : ts.Nodup
  /-- The store names the circuits the registry holds. -/
  mem : ∀ t, t ∈ ts ↔ (c.lookup ("$" ++ t.2.1) ("$" ++ t.1) ("$" ++ t.2.2)).isSome

theorem refines_empty : Refines empty [] :=
  ⟨fun _ _ _ _ h => by simp [empty, lookup] at h, List.nodup_nil, fun _ => by simp [empty, lookup]⟩

theorem callerName_ne_empty (req : CircuitRequest) : req.callerName ≠ "" := by
  unfold CircuitRequest.callerName
  split
  · split <;> simp_all
  · simp

/-- The health of the circuit decides the answer of a request, never the store. -/
theorem getCircuitForRequest_snd {c : Circuits} (shouldRequest : Circuit → Bool)
    {req : CircuitRequest} (hs : req.serviceName ≠ "") :
    (c.getCircuitForRequest shouldRequest req).2 =
      (c.getCircuit req.callerName req.serviceName req.arg1).2 := by
  unfold getCircuitForRequest
  rw [if_neg hs]
  dsimp only
  split <;> rfl

namespace Refines

variable {c : Circuits} {ts : List (String × String × String)}

/-- A request with a service name makes at most the circuit of its names. -/
theorem getCircuit (h : Refines c ts) (req : CircuitRequest) :
    Refines (c.getCircuit req.callerName req.serviceName req.arg1).2
      (if (req.callerName, req.serviceName, req.arg1) ∈ ts then ts
        else ts ++ [(req.callerName, req.serviceName, req.arg1)]) := by
  set t := (req.callerName, req.serviceName, req.arg1) with ht
  have hlook := lookup_getCircuit c req.callerName req.serviceName req.arg1
  have hfst := getCircuit_fst c req.callerName req.serviceName req.arg1
  have hkeys : ∀ t' : String × String × String,
      ("$" ++ t'.2.1 = "$" ++ req.serviceName ∧ "$" ++ t'.1 = "$" ++ req.callerName ∧
        "$" ++ t'.2.2 = "$" ++ req.arg1) ↔ t' = t := by
    rintro ⟨a, b, e⟩
    simp only [dollar_append_inj, ht, Prod.mk.injEq]
    tauto
  refine ⟨fun ks kc ke circuit hc => ?_, ?_, fun t' => ?_⟩
  · rw [hlook] at hc
    split_ifs at hc with hk
    · obtain ⟨rfl, rfl, rfl⟩ := hk
      obtain rfl := Option.some.inj hc
      rw [hfst]
      cases hold : c.lookup ("$" ++ req.serviceName) ("$" ++ req.callerName) ("$" ++ req.arg1)
      · simp [newCircuit, callerName_ne_empty]
      · simpa using h.keyed _ _ _ _ hold
    · exact h.keyed _ _ _ _ hc
  · split_ifs with hin
    · exact h.nodup
    · exact h.nodup.append (List.nodup_singleton _) (List.disjoint_singleton.mpr hin)
  · rw [hlook]
    by_cases ht' : t' = t
    · subst ht'
      rw [if_pos ((hkeys t).mpr rfl), Option.isSome_some]
      refine iff_of_true ?_ rfl
      split_ifs with hin
      · exact hin
      · exact List.mem_append_right _ (List.mem_singleton_self _)
    · rw [if_neg fun hk => ht' ((hkeys t').mp hk), ← h.mem t']
      split_ifs <;> simp [ht']

/-- Every call keeps the refinement. -/
theorem apply (h : Refines c ts) (call : Call) : Refines (c.apply call) (call.tuples ts) := by
  cases call with
  | getCircuitForRequest shouldRequest req =>
    by_cases hs : req.serviceName = ""
    · simpa [Circuits.apply, Call.tuples, getCircuitForRequest, hs] using h
    · rw [Circuits.apply, getCircuitForRequest_snd shouldRequest hs, Call.tuples]
      simpa only [hs, false_or] using h.getCircuit req
  | updateServices isExitFor =>
    refine ⟨fun ks kc ke circuit hc => ?_, h.nodup.filter _, fun t => ?_⟩
    · rw [Circuits.apply, lookup_updateServices] at hc
      split_ifs at hc
      exact h.keyed _ _ _ _ hc
    · rw [Circuits.apply, lookup_updateServices, Call.tuples, List.mem_filter, h.mem t]
      cases isExitFor ("$" ++ t.2.1) <;> simp

/-- Every run of calls keeps the refinement. -/
theorem foldl (h : Refines c ts) (calls : List Call) :
    Refines (calls.foldl Circuits.apply c) (calls.foldl Call.tuples ts) := by
  induction calls generalizing c ts with
  | nil => exact h
  | cons call calls ih => exact ih (h.apply call)

/-- The view `getCircuitTuples` lists the circuits of the abstract store. -/
theorem mem_getCircuitTuples (h : Refines c ts) (t : String × String × String) :
    t ∈ c.getCircuitTuples ↔ t ∈ ts := by
  rw [Circuits.mem_getCircuitTuples, h.mem t]
  constructor
  · rintro ⟨ks, kc, ke, circuit, hc, rfl⟩
    obtain ⟨rfl, rfl, rfl⟩ := h.keyed _ _ _ _ hc
    simp [Circuit.tuple, hc]
  · intro hc
    obtain ⟨circuit, hc⟩ := Option.isSome_iff_exists.mp hc
    obtain ⟨h₁, h₂, h₃⟩ := h.keyed _ _ _ _ hc
    refine ⟨_, _, _, circuit, hc, ?_⟩
    rw [dollar_append_inj] at h₁ h₂ h₃
    rw [Circuit.tuple, ← h₁, ← h₂, ← h₃]

end Refines

/-- After every run of requests and membership changes from the empty registry,
`getCircuitTuples` lists each circuit once, and lists the circuits of the abstract store. -/
theorem getCircuitTuples_run (calls : List Call) :
    ((calls.foldl apply empty).getCircuitTuples).Nodup ∧
      (calls.foldl apply empty).getCircuitTuples.Perm (calls.foldl Call.tuples []) := by
  have h := refines_empty.foldl calls
  have hnodup := nodup_getCircuitTuples h.keyed
  exact ⟨hnodup, (List.perm_ext_iff_of_nodup hnodup h.nodup).mpr h.mem_getCircuitTuples⟩

end Circuits

end Hyperbahn
