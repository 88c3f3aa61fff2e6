import Hyperbahn.Dispatcher.Correctness.Reconcile

/-!
# Partial affinity connects exactly the affine workers

`ensurePartialConnections` connects the affine workers of the service's range and disconnects
every other connected worker that is not pending prune, where "affine" is read from a plain
object `isAffine = {}`. That object also answers for the names it inherits from
`Object.prototype`, so a connected worker named `constructor` or `toString` is never
disconnected (`ensurePartialConnections_keeps_prototype_named_peer`).

For every other name, the invariant of the indices (`IndexInv`: positive times, and no peer
pending prune has a connected service) makes the two filters exact. After a call that returns
a result, the workers connected for the service are exactly its affine workers, each stamped
with the time of the call and none pending prune (`ensurePartialConnections_some`). An
advertisement of a worker on an exit channel whose range is valid leaves the worker connected
exactly when it is affine, on the new-peer path and on the freshen path alike
(`refreshServicePeerPartially_connects_iff_affine`). Every reachable state under partial
affinity keeps both promises, for every service (`affineConnections_of_reachable`).
-/

namespace Hyperbahn

namespace Dispatcher

variable (cfg : Config)

/-! ## What the connecting steps do to the tables -/

section Tables

@[simp]
theorem connectedServicePeers__getServicePeer (d : Dispatcher) (s hp : String) :
    (d._getServicePeer s hp).connectedServicePeers = d.connectedServicePeers :=
  congrArg (·.1) (indices__getServicePeer d s hp)

@[simp]
theorem peersToPrune__getServicePeer (d : Dispatcher) (s hp : String) :
    (d._getServicePeer s hp).peersToPrune = d.peersToPrune :=
  congrArg (·.2.2) (indices__getServicePeer d s hp)

@[simp]
theorem partialRanges__getServicePeer (d : Dispatcher) (s hp : String) :
    (d._getServicePeer s hp).partialRanges = d.partialRanges := by
  unfold Dispatcher._getServicePeer
  split
  · split <;> rfl
  · rfl

theorem connectedServicePeers_ensurePeerConnected (d : Dispatcher) (s hp : String) (now : Nat) :
    (d.ensurePeerConnected s hp now).connectedServicePeers =
      if d.partialAffinityEnabled then addIndexEntry d.connectedServicePeers s hp now
      else d.connectedServicePeers := by
  rw [Dispatcher.ensurePeerConnected, show ∀ d' : Dispatcher,
    (d'.connectPeer hp).connectedServicePeers = d'.connectedServicePeers from
      fun d' => congrArg (·.1) (indices_connectPeer d' hp)]
  unfold connectIfPartial
  split <;> rfl

theorem peersToPrune_ensurePeerConnected (d : Dispatcher) (s hp : String) (now : Nat) :
    (d.ensurePeerConnected s hp now).peersToPrune = d.peersToPrune.delete hp := by
  rw [Dispatcher.ensurePeerConnected, show ∀ d' : Dispatcher,
    (d'.connectPeer hp).peersToPrune = d'.peersToPrune from
      fun d' => congrArg (·.2.2) (indices_connectPeer d' hp)]
  unfold connectIfPartial
  split <;> rfl

@[simp]
theorem partialRanges_ensurePeerConnected (d : Dispatcher) (s hp : String) (now : Nat) :
    (d.ensurePeerConnected s hp now).partialRanges = d.partialRanges := by
  simp only [Dispatcher.ensurePeerConnected, connectPeer, partialRanges_modifyPeer, cancelPrune]
  unfold connectIfPartial
  split <;> rfl

@[simp]
theorem partialRanges_ensurePeerDisconnected (d : Dispatcher) (s hp reason : String) (now : Nat) :
    (d.ensurePeerDisconnected s hp reason now).partialRanges = d.partialRanges := by
  simp only [Dispatcher.ensurePeerDisconnected, pruneIfIdle, disconnectIfPartial, deleteConnected]
  split_ifs <;> rfl

/-- `ensurePeerDisconnected` schedules a prune for its own peer only. -/
theorem contains_peersToPrune_ensurePeerDisconnected {hp w : String} (h : hp ≠ w) (d : Dispatcher)
    (s reason : String) (now : Nat) :
    (d.ensurePeerDisconnected s w reason now).peersToPrune.contains hp =
      d.peersToPrune.contains hp := by
  simp only [Dispatcher.ensurePeerDisconnected, pruneIfIdle, disconnectIfPartial, deleteConnected]
  split_ifs <;> simp [JsMap.contains, h]

theorem partialRanges_foldl {α : Type} {f : Dispatcher → α → Dispatcher}
    (hf : ∀ d a, (f d a).partialRanges = d.partialRanges) (l : List α) (d : Dispatcher) :
    (l.foldl f d).partialRanges = d.partialRanges :=
  foldl_keeps (P := fun d' => d'.partialRanges = d.partialRanges) l rfl
    fun d a _ h => (hf d a).trans h

/-- Under partial affinity, the connecting loop of `ensurePartialConnections` stamps each of its
workers with the time of the call. -/
theorem indexGet_foldl_connect {d : Dispatcher} (hpa : d.partialAffinityEnabled = true)
    (s : String) (now : Nat) (l : List String) (hp : String) :
    indexGet (l.foldl (fun d w => (d._getServicePeer s w).ensurePeerConnected s w now)
        d).connectedServicePeers s hp =
      if hp ∈ l then some now else indexGet d.connectedServicePeers s hp := by
  induction l generalizing d with
  | nil => simp
  | cons w l ih =>
    rw [List.foldl_cons, ih (by simpa using hpa), connectedServicePeers_ensurePeerConnected,
      connectedServicePeers__getServicePeer, partialAffinityEnabled__getServicePeer, if_pos hpa,
      indexGet_addIndexEntry]
    by_cases hw : hp = w <;> simp [hw]

/-- The connecting loop cancels the prune of each of its workers and keeps the others. -/
theorem peersToPrune_foldl_connect (d : Dispatcher) (s : String) (now : Nat) (l : List String)
    (hp : String) :
    (l.foldl (fun d w => (d._getServicePeer s w).ensurePeerConnected s w now)
        d).peersToPrune.contains hp = (!l.contains hp && d.peersToPrune.contains hp) := by
  induction l generalizing d with
  | nil => simp
  | cons w l ih =>
    rw [List.foldl_cons, ih, peersToPrune_ensurePeerConnected, peersToPrune__getServicePeer]
    by_cases hw : hp = w <;> simp [hw, JsMap.contains]

/-- The disconnecting loop drops the pair of each of its workers whose time is truthy, under
partial affinity. -/
theorem indexGet_foldl_disconnect (d : Dispatcher) (s reason : String) (now : Nat)
    (l : List String) (hp : String) :
    indexGet (l.foldl (fun d w => (d._getServicePeer s w).ensurePeerDisconnected s w reason now)
        d).connectedServicePeers s hp =
      if d.partialAffinityEnabled ∧ hp ∈ l ∧ indexGet d.connectedServicePeers s hp ≠ some 0 then
        none
      else indexGet d.connectedServicePeers s hp := by
  induction l generalizing d with
  | nil => simp
  | cons w l ih =>
    rw [List.foldl_cons, ih, connectedServicePeers_ensurePeerDisconnected,
      connectedServicePeers__getServicePeer, partialAffinityEnabled_ensurePeerDisconnected,
      partialAffinityEnabled__getServicePeer]
    cases d.partialAffinityEnabled
    · simp
    · simp only [if_true, indexGet_deleteIndexEntry, true_and, List.mem_cons]
      by_cases hw : hp = w
      · subst hw
        by_cases h0 : indexGet d.connectedServicePeers s hp = some 0 <;> simp [h0]
      · simp [hw]

theorem peersToPrune_foldl_disconnect_of_not_mem (d : Dispatcher) (s reason : String) (now : Nat)
    {l : List String} {hp : String} (hl : hp ∉ l) :
    (l.foldl (fun d w => (d._getServicePeer s w).ensurePeerDisconnected s w reason now)
        d).peersToPrune.contains hp = d.peersToPrune.contains hp := by
  induction l generalizing d with
  | nil => rfl
  | cons w l ih =>
    rw [List.foldl_cons, ih _ fun h => hl (List.mem_cons_of_mem w h),
      contains_peersToPrune_ensurePeerDisconnected fun h => hl (List.mem_cons.mpr (.inl h)),
      peersToPrune__getServicePeer]

/-- After the connecting loop and then the disconnecting loop, under partial affinity, a worker
with a positive time or none is connected exactly when it is among the workers connected, as
long as the disconnecting loop avoids those and covers it whenever it was connected and not
among them. -/
theorem isSome_foldl_reconnect_iff {d : Dispatcher} (hpa : d.partialAffinityEnabled = true)
    {s reason : String} {now : Nat} {affine toDisconnect : List String} {hp : String}
    (hdis : ∀ w ∈ affine, w ∉ toDisconnect)
    (hpos : ∀ t, indexGet d.connectedServicePeers s hp = some t → 0 < t)
    (hcov : hp ∉ affine → (indexGet d.connectedServicePeers s hp).isSome → hp ∈ toDisconnect) :
    (indexGet (toDisconnect.foldl
      (fun d w => (d._getServicePeer s w).ensurePeerDisconnected s w reason now)
        (affine.foldl (fun d w => (d._getServicePeer s w).ensurePeerConnected s w now)
          d)).connectedServicePeers s hp).isSome ↔ hp ∈ affine := by
  have hpa' : (affine.foldl (fun d w => (d._getServicePeer s w).ensurePeerConnected s w now)
      d).partialAffinityEnabled = true :=
    (partialAffinityEnabled_foldl (fun d w => by simp) _ _).trans hpa
  rw [indexGet_foldl_disconnect, indexGet_foldl_connect hpa]
  by_cases ha : hp ∈ affine
  · simp [ha, hdis hp ha]
  · rw [if_neg ha]
    cases hc : indexGet d.connectedServicePeers s hp with
    | none => simp [ha]
    | some t =>
      have ht : t ≠ 0 := Nat.pos_iff_ne_zero.mp (hpos t hc)
      simp [hpa', hcov ha (by rw [hc]; rfl), ht, ha]

end Tables

/-! ## What one call of `ensurePartialConnections` leaves -/

section Call

theorem validRange_of_partialRanges_eq {d d' : Dispatcher} (h : d'.partialRanges = d.partialRanges)
    (s : String) : d'.validRange s = d.validRange s := by
  simp only [validRange, h]

/-- A worker with a recorded time for the service, neither affine nor named after a property of
`Object.prototype`, is among the workers `ensurePartialConnections` disconnects: by the
invariant, a worker with a connected service is not pending prune. -/
theorem mem_toDisconnect {d₀ d₁ : Dispatcher} (hinv : IndexInv d₀)
    (hprune : d₁.peersToPrune = d₀.peersToPrune) {s hp : String} {affine : List String}
    (hc : (indexGet d₀.connectedServicePeers s hp).isSome) (ha : hp ∉ affine)
    (hproto : hp ∉ objectPrototypeKeys) :
    hp ∈ (((d₀.connectedServicePeers.get s).map JsMap.keys).getD []).filter fun w =>
      !plainObjectHas affine w && !d₁.peersToPrune.contains w := by
  have hpr : d₀.peersToPrune.contains hp = false := by
    cases h : d₀.peersToPrune.contains hp
    · rfl
    · rw [hinv.transpose, indexGet, hinv.pruned hp h] at hc
      cases hc
  rw [List.mem_filter, hprune, hpr]
  refine ⟨?_, by simp [plainObjectHas, ha, hproto]⟩
  cases hl : d₀.connectedServicePeers.get s with
  | none => simp [indexGet, hl] at hc
  | some level =>
    simp only [indexGet, hl, Option.bind_some] at hc
    exact JsMap.mem_keys.mpr hc

/-- On a state where the invariant holds, under partial affinity, a call of
`ensurePartialConnections` that returns a result leaves a valid range whose affine workers are
the ones it reports; a result marked `noop` has none. Every worker not named after a property
of `Object.prototype`, or not connected before, is connected after exactly when it is affine,
and each affine worker is stamped with the time of the call and not pending prune. -/
theorem ensurePartialConnections_some {d d' : Dispatcher} {res : PartialConnections}
    (hinv : IndexInv d) (hpa : d.partialAffinityEnabled = true) {s : String} {now : Nat}
    (he : ensurePartialConnections cfg d s now = (some res, d')) :
    ∃ r, d'.validRange s = some r ∧ res.toConnect = r.affineWorkers ∧
      res.isAffine = r.affineWorkers ∧ (res.noop = true → r.affineWorkers = []) ∧
      (∀ hp, (hp ∉ objectPrototypeKeys ∨ indexGet d.connectedServicePeers s hp = none) →
        ((indexGet d'.connectedServicePeers s hp).isSome ↔ hp ∈ r.affineWorkers)) ∧
      ∀ w ∈ r.affineWorkers, indexGet d'.connectedServicePeers s w = some now ∧
        d'.peersToPrune.contains w = false := by
  have hi₀ := indices_ensurePartialRange cfg d s
  have hinv₀ := hinv.of_indices_eq hi₀
  have hpa₀ : (ensurePartialRange cfg d s).partialAffinityEnabled = true := by simpa using hpa
  simp only [indices, Prod.mk.injEq] at hi₀
  simp only [Dispatcher.ensurePartialConnections] at he
  split at he
  · cases he
  rename_i r hr
  have hi₁ := indices_foldl__getServicePeer (ensurePartialRange cfg d s) s r.affineWorkers
  simp only [indices, Prod.mk.injEq] at hi₁
  have hpa₁ : (r.affineWorkers.foldl (fun d w => d._getServicePeer s w)
      (ensurePartialRange cfg d s)).partialAffinityEnabled = true :=
    (partialAffinityEnabled_foldl
      (fun d w => partialAffinityEnabled__getServicePeer d s w) _ _).trans hpa₀
  have hr₁ : (r.affineWorkers.foldl (fun d w => d._getServicePeer s w)
      (ensurePartialRange cfg d s)).validRange s = some r :=
    (validRange_of_partialRanges_eq
      (partialRanges_foldl (fun d w => partialRanges__getServicePeer d s w) _ _) s).trans hr
  have hdis : ∀ hp, hp ∉ r.affineWorkers →
      (hp ∉ objectPrototypeKeys ∨ indexGet d.connectedServicePeers s hp = none) →
      (indexGet d.connectedServicePeers s hp).isSome → hp ∈ List.filter (fun w =>
          !plainObjectHas r.affineWorkers w && !(r.affineWorkers.foldl
            (fun d w => d._getServicePeer s w)
              (ensurePartialRange cfg d s)).peersToPrune.contains w)
        ((((ensurePartialRange cfg d s).connectedServicePeers.get s).map JsMap.keys).getD []) :=
    fun hp ha hproto hc => mem_toDisconnect hinv₀ hi₁.2.2 (by rwa [hi₀.1]) ha
      (hproto.resolve_right fun h => by rw [h] at hc; cases hc)
  split at he
  · rename_i hnoop
    simp only [Prod.mk.injEq, Option.some.injEq] at he
    obtain ⟨rfl, rfl⟩ := he
    simp only [Bool.and_eq_true, List.isEmpty_iff] at hnoop
    refine ⟨r, hr₁, rfl, rfl, fun _ => hnoop.1, fun hp hproto => ?_, fun w hw => ?_⟩
    · rw [hi₁.1, hi₀.1, hnoop.1]
      refine ⟨fun hc => ?_, fun h => absurd h (List.not_mem_nil hp)⟩
      have := hdis hp (by rw [hnoop.1]; exact List.not_mem_nil hp) hproto hc
      rw [hnoop.2] at this
      exact absurd this (List.not_mem_nil hp)
    · rw [hnoop.1] at hw
      exact absurd hw (List.not_mem_nil w)
  · simp only [Prod.mk.injEq, Option.some.injEq] at he
    obtain ⟨rfl, rfl⟩ := he
    have hnot : ∀ w ∈ r.affineWorkers, w ∉ List.filter (fun w =>
          !plainObjectHas r.affineWorkers w && !(r.affineWorkers.foldl
            (fun d w => d._getServicePeer s w)
              (ensurePartialRange cfg d s)).peersToPrune.contains w)
        ((((ensurePartialRange cfg d s).connectedServicePeers.get s).map JsMap.keys).getD []) :=
      fun w hw h => by simp [List.mem_filter, plainObjectHas, hw] at h
    refine ⟨r, ?_, rfl, rfl, fun h => (nomatch h), fun hp hproto => ?_, fun w hw => ⟨?_, ?_⟩⟩
    · rw [validRange_of_partialRanges_eq (partialRanges_foldl
        (fun d w => by simp) _ _), validRange_of_partialRanges_eq (partialRanges_foldl
        (fun d w => by simp) _ _), hr₁]
    · have hX : indexGet (r.affineWorkers.foldl (fun d w => d._getServicePeer s w)
          (ensurePartialRange cfg d s)).connectedServicePeers s hp =
            indexGet d.connectedServicePeers s hp := by rw [hi₁.1, hi₀.1]
      exact isSome_foldl_reconnect_iff hpa₁ hnot (fun t ht => hinv.positive s hp t (hX ▸ ht))
        fun ha hc => hdis hp ha hproto (hX ▸ hc)
    · rw [indexGet_foldl_disconnect, if_neg fun h => hnot w hw h.2.1, indexGet_foldl_connect hpa₁,
        if_pos hw]
    · rw [peersToPrune_foldl_disconnect_of_not_mem _ _ _ _ (hnot w hw), peersToPrune_foldl_connect]
      simp [hw]

theorem ensurePartialConnections_none {d d' : Dispatcher} {s : String} {now : Nat}
    (he : ensurePartialConnections cfg d s now = (none, d')) : d'.validRange s = none := by
  simp only [Dispatcher.ensurePartialConnections] at he
  split at he
  · rename_i h
    simp only [Prod.mk.injEq, true_and] at he
    rw [← he]
    exact h
  · split at he <;> simp at he

end Call

/-! ## An advertisement under partial affinity -/

section Refresh

theorem validRange_ensurePeerConnectedIf (X : Dispatcher) (b : Bool) (s hp reason : String)
    (now : Nat) (s' : String) :
    (if b then X.ensurePeerConnected s hp now
      else X.ensurePeerDisconnected s hp reason now).validRange s' = X.validRange s' := by
  split <;> exact validRange_of_partialRanges_eq (by simp) s'

/-- On a state where the invariant holds, under partial affinity, the last step of
`freshenPartialPeer` leaves the worker connected exactly when it asks to. -/
theorem isSome_ensurePeerConnectedIf {X : Dispatcher} (hinv : IndexInv X)
    (hpa : X.partialAffinityEnabled = true) (b : Bool) (s hp reason : String) (now : Nat) :
    (indexGet (if b then X.ensurePeerConnected s hp now
      else X.ensurePeerDisconnected s hp reason now).connectedServicePeers s hp).isSome = b := by
  cases b
  · rw [if_neg Bool.false_ne_true, connectedServicePeers_ensurePeerDisconnected, if_pos hpa,
      indexGet_deleteIndexEntry]
    cases hc : indexGet X.connectedServicePeers s hp with
    | none => simp
    | some t =>
      have ht : t ≠ 0 := Nat.pos_iff_ne_zero.mp (hinv.positive s hp t hc)
      simp [ht]
  · rw [if_pos rfl, connectedServicePeers_ensurePeerConnected, if_pos hpa, indexGet_addIndexEntry]
    simp

/-- The freshen path: the worker is connected afterwards exactly when the valid range makes it
affine. -/
theorem freshenPartialPeer_connects_iff_affine {d : Dispatcher} (hinv : IndexInv d)
    (hpa : d.partialAffinityEnabled = true) {s hp : String} {now : Nat} (hnow : 0 < now)
    {r : PartialRange} (hr : (freshenPartialPeer cfg d s hp now).validRange s = some r) :
    (indexGet (freshenPartialPeer cfg d s hp now).connectedServicePeers s hp).isSome ↔
      hp ∈ r.affineWorkers := by
  simp only [Dispatcher.freshenPartialPeer] at hr ⊢
  rw [validRange_ensurePeerConnectedIf] at hr
  rw [isSome_ensurePeerConnectedIf ?_ ?_, hr]
  · have hn : now ≠ 0 := Nat.pos_iff_ne_zero.mp hnow
    have hc : r.affineWorkers.contains hp = true ↔ hp ∈ r.affineWorkers := List.elem_iff
    revert hc
    cases (indexGet d.connectedServicePeers s hp).any (· ≠ 0) <;>
      cases r.affineWorkers.contains hp <;> simp [hn]
  · exact ((hinv.refreshConnected _ s hp hnow).of_indices_eq
      (indices_markKnown _ s hp now)).of_indices_eq (indices_ensurePartialRange cfg _ s)
  · simp only [partialAffinityEnabled_ensurePartialRange]
    split <;> simpa [markKnown, addConnected, cancelPrune, deleteConnected] using hpa

/-- `deleteConnected` drops a pair whose time is positive. -/
theorem indexGet_deleteConnected_self {d : Dispatcher} (hinv : IndexInv d) (s hp : String) :
    indexGet (d.deleteConnected s hp).connectedServicePeers s hp = none := by
  rw [Dispatcher.deleteConnected, indexGet_deleteIndexEntry]
  cases hc : indexGet d.connectedServicePeers s hp with
  | none => simp
  | some t =>
    have ht : t ≠ 0 := Nat.pos_iff_ne_zero.mp (hinv.positive s hp t hc)
    simp [ht]

/-- On a state where the invariant holds, under partial affinity, `refreshServicePeerPartially`
leaves a worker not named after a property of `Object.prototype` connected exactly when the
valid range it leaves makes the worker affine, whether the worker was new to the channel or
freshened. -/
theorem refreshServicePeerPartially_connects_iff_affine {d : Dispatcher} (hinv : IndexInv d)
    (hpa : d.partialAffinityEnabled = true) {s hp : String} {now : Nat} (hnow : 0 < now)
    (hproto : hp ∉ objectPrototypeKeys) {r : PartialRange}
    (hr : (refreshServicePeerPartially cfg d s hp now).validRange s = some r) :
    (indexGet (refreshServicePeerPartially cfg d s hp now).connectedServicePeers s hp).isSome ↔
      hp ∈ r.affineWorkers := by
  simp only [Dispatcher.refreshServicePeerPartially] at hr ⊢
  by_cases hh : d.channelHolds s hp
  · rw [if_pos hh] at hr ⊢
    exact freshenPartialPeer_connects_iff_affine cfg hinv hpa hnow hr
  rw [if_neg hh] at hr ⊢
  have hY : IndexInv (((d.addRangeWorker s hp)._getServicePeer s hp).markKnown s hp now) :=
    ((hinv.of_indices_eq (indices_addRangeWorker d s hp))._getServicePeer s hp).of_indices_eq
      (indices_markKnown _ s hp now)
  have hpaY : (((d.addRangeWorker s hp)._getServicePeer s hp).markKnown s hp now
      ).partialAffinityEnabled = true := by simpa [markKnown] using hpa
  have h₁ := hY.ensurePartialConnections cfg s hnow
  revert hr h₁
  generalize hE : ensurePartialConnections cfg (((d.addRangeWorker s hp)._getServicePeer s hp
    ).markKnown s hp now) s now = E
  obtain ⟨_ | res, d₁⟩ := E
  · intro hr _
    simp only [ensurePartialConnections_none cfg hE] at hr
    exact absurd hr (by simp)
  obtain ⟨r₀, hr₀, -, hiso, hnoop, hiff, -⟩ := ensurePartialConnections_some cfg hY hpaY hE
  intro hr h₁
  dsimp only at hr h₁ ⊢
  by_cases hn : res.noop = true
  · have hown : plainObjectHas res.isAffine hp = false := by
      simpa [plainObjectHas, hiso, hnoop hn] using hproto
    rw [if_pos hn, hown, if_neg Bool.false_ne_true] at hr ⊢
    have hv : (d₁.deleteConnected s hp).validRange s = d₁.validRange s :=
      validRange_of_partialRanges_eq rfl s
    rw [hv, hr₀, Option.some_inj] at hr
    rw [indexGet_deleteConnected_self h₁, ← hr, hnoop hn]
    simp
  · rw [if_neg hn] at hr ⊢
    rw [hr₀, Option.some_inj] at hr
    exact hr ▸ hiff hp (.inl hproto)

/-- An advertisement on an exit-mode channel under partial affinity, on a state where the
invariant holds: the worker is connected afterwards exactly when the valid range makes it
affine. -/
theorem refreshServicePeer_connects_iff_affine {d : Dispatcher} (hinv : IndexInv d)
    (hpa : d.partialAffinityEnabled = true) {s hp : String} {now : Nat} (hnow : 0 < now)
    (hx : (getOrCreateServiceChannel cfg d s).channelMode s = some .exit)
    (hproto : hp ∉ objectPrototypeKeys) {r : PartialRange}
    (hr : (refreshServicePeer cfg d s hp now).validRange s = some r) :
    (indexGet (refreshServicePeer cfg d s hp now).connectedServicePeers s hp).isSome ↔
      hp ∈ r.affineWorkers := by
  have h₀ : IndexInv { getOrCreateServiceChannel cfg d s with
      exitServices := (getOrCreateServiceChannel cfg d s).exitServices.set s now } :=
    (hinv.of_indices_eq (indices_getOrCreateServiceChannel cfg d s)).of_indices_eq rfl
  have hpa₀ := (partialAffinityEnabled_getOrCreateServiceChannel cfg d s).trans hpa
  simp only [Dispatcher.refreshServicePeer, hx, ne_eq, not_true_eq_false, if_false] at hr ⊢
  rw [if_pos hpa₀] at hr ⊢
  exact refreshServicePeerPartially_connects_iff_affine cfg h₀ hpa₀ hnow hproto hr

end Refresh

/-! ## From every reachable state -/

/-- What partial affinity promises for the service `s` of a state `d`. -/
structure AffineConnections (cfg : Config) (d : Dispatcher) (s : String) : Prop where
  /-- A call of `ensurePartialConnections` that answers leaves a valid range whose affine
  workers it connects, each with the time of the call and none pending prune, and no other
  worker, except one named after a property of `Object.prototype` that was connected before. -/
  ensure : ∀ {now res d'}, ensurePartialConnections cfg d s now = (some res, d') →
    ∃ r, d'.validRange s = some r ∧ res.toConnect = r.affineWorkers ∧
      (∀ hp, (hp ∉ objectPrototypeKeys ∨ indexGet d.connectedServicePeers s hp = none) →
        ((indexGet d'.connectedServicePeers s hp).isSome ↔ hp ∈ r.affineWorkers)) ∧
      ∀ w ∈ r.affineWorkers, indexGet d'.connectedServicePeers s w = some now ∧
        d'.peersToPrune.contains w = false
  /-- An advertisement of a worker not named after a property of `Object.prototype` on an
  exit-mode channel that leaves a valid range connects the worker exactly when it is
  affine. -/
  refresh : ∀ {hp now r}, 0 < now → (getOrCreateServiceChannel cfg d s).channelMode s = some .exit →
    hp ∉ objectPrototypeKeys → (refreshServicePeer cfg d s hp now).validRange s = some r →
    ((indexGet (refreshServicePeer cfg d s hp now).connectedServicePeers s hp).isSome ↔
      hp ∈ r.affineWorkers)

/-- Under partial affinity every reachable state keeps the promise, for every service. -/
theorem affineConnections_of_reachable {d : Dispatcher} (hd : Reachable cfg d)
    (hpa : d.partialAffinityEnabled = true) (s : String) : AffineConnections cfg d s where
  ensure he := by
    obtain ⟨r, hr, hc, -, -, hiff, hw⟩ :=
      ensurePartialConnections_some cfg (indexInv_of_reachable cfg hd) hpa he
    exact ⟨r, hr, hc, hiff, hw⟩
  refresh hnow hx hproto hr :=
    refreshServicePeer_connects_iff_affine cfg (indexInv_of_reachable cfg hd) hpa hnow hx hproto hr

/-- A partial-affinity run in which `v` and `w` are advertised for `s` and the ring then gains a
second relay. -/
theorem affineConnections_of_reachable_advertised :
    ∃ d, run (Config.sample "r") (init (Ring.single "r"))
        [(1, .setPartialAffinityEnabled true), (2, .refreshServicePeer "s" "v"),
          (3, .refreshServicePeer "s" "w"), (4, .egressNodesChanged ⟨fun _ => ["q", "r"]⟩),
          (5, .updateServiceChannels)] = .ok d ∧
      d.partialAffinityEnabled = true ∧ AffineConnections (Config.sample "r") d "s" := by
  obtain ⟨d, hrun, hpa⟩ : ∃ d, run (Config.sample "r") (init (Ring.single "r"))
      [(1, .setPartialAffinityEnabled true), (2, .refreshServicePeer "s" "v"),
        (3, .refreshServicePeer "s" "w"), (4, .egressNodesChanged ⟨fun _ => ["q", "r"]⟩),
        (5, .updateServiceChannels)] = .ok d ∧ d.partialAffinityEnabled = true :=
    ⟨_, rfl, by decide⟩
  exact ⟨d, hrun, hpa,
    affineConnections_of_reachable _ (reachable_run _ (.init _) (by decide) hrun) hpa "s"⟩

/-- A worker named after a property of `Object.prototype` that the range no longer makes affine
stays connected: the test `!isAffine[worker]` reads the property inherited by the plain object
`isAffine`. -/
theorem ensurePartialConnections_keeps_prototype_named_peer :
    ∃ d, Reachable (Config.sample "r") d ∧ d.partialAffinityEnabled = true ∧
      ∃ res d' r, ensurePartialConnections (Config.sample "r") d "s" 5 = (some res, d') ∧
        d'.validRange "s" = some r ∧ (indexGet d'.connectedServicePeers "s" "constructor").isSome ∧
        "constructor" ∉ r.affineWorkers := by
  obtain ⟨d₁, d₂, h₁, h₂, hp⟩ : ∃ d₁ d₂, Reachable (Config.sample "r") d₁ ∧
      step (Config.sample "r") d₁ 4 (.removeServicePeer "s" "constructor") = .ok d₂ ∧
      (d₂.partialAffinityEnabled && match ensurePartialConnections (Config.sample "r") d₂ "s" 5 with
        | (some _, d₃) => match d₃.validRange "s" with
          | some r => (indexGet d₃.connectedServicePeers "s" "constructor").isSome &&
              !r.affineWorkers.contains "constructor"
          | none => false
        | (none, _) => false) = true :=
    exists_step_of_runThenStep _
      [(1, .setPartialAffinityEnabled true), (2, .refreshServicePeer "s" "constructor"),
        (3, .refreshServicePeer "s" "w")]
      (.init (Ring.single "r")) (by decide) (by decide)
  rw [Bool.and_eq_true] at hp
  refine ⟨d₂, .step h₁ (by decide) h₂, hp.1, ?_⟩
  revert hp
  rcases ensurePartialConnections (Config.sample "r") d₂ "s" 5 with ⟨_ | res, d'⟩
  · simp
  · dsimp only
    rcases hr : d'.validRange "s" with _ | r
    · simp
    · intro h
      simp only [Bool.and_eq_true, Bool.not_eq_true', List.elem_eq_mem,
        decide_eq_false_iff_not] at h
      exact ⟨res, d', r, rfl, hr, h.2⟩

end Dispatcher

end Hyperbahn
