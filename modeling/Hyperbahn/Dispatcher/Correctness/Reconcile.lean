import Hyperbahn.Dispatcher.Correctness.Legacy

/-!
# Every channel follows the ring after a membership change

`updateServiceChannels` runs `updateServiceChannel` once for every sub channel with a service
mode, in the order of `Object.keys`. For every dispatcher state and every ring, after the loop
each such channel has the mode the ring gives it, a forward channel has the exits of the ring
as its peers, `relaysFor` holds the sorted exits, a channel that flipped from exit to forward
has let go of each of its former workers, and the dispatcher's own `isExitFor` agrees with the
ring (`updateServiceChannels_reconciles`).

The module introduces:

* `IdlePruned d hp` — `hp` is scheduled for pruning when `connectedPeerServices` lists no
  service for it, and `Released d s hp` — neither connected index holds a truthy stamp for the
  pair: together, what `ensurePeerDisconnected s hp` leaves under partial affinity.
* `TouchesOnly ks d d'` — the step from `d` to `d'` changes the channel, the stored relays and
  the connected pairs of the services in `ks` only, in both indices, keeps the ring and the
  partial-affinity flag, keeps every idle peer scheduled for pruning, and in legacy mode keeps
  `connectedPeerServices` and every scheduled prune. Every helper of `updateServiceChannel s`
  touches `[s]` only.
* `Reconciled cfg d₀ d s` — what `updateServiceChannel` leaves in `d` for the service `s`, read
  against the state `d₀` before the loop. It depends only on what `TouchesOnly` keeps, so a pass
  for another service leaves it holding (`Reconciled.frame`).

One pass reconciles its own channel (`reconciled_updateServiceChannel`). The keys of an object
are distinct (`JsMap.keys_nodup`), so the loop visits each channel once, and every later pass
leaves it reconciled (`reconciled_loop`).
-/

namespace Hyperbahn

namespace Dispatcher

variable (cfg : Config)

/-! ## Steps that touch a few services -/

section Touches

/-- `hp` is scheduled for pruning when `connectedPeerServices` lists no service for it: what
`ensurePeerDisconnected` leaves for its peer. -/
def IdlePruned (d : Dispatcher) (hp : String) : Prop :=
  (d.connectedPeerServices.get hp).all (·.isEmpty) → d.peersToPrune.contains hp

/-- Neither connected index holds a truthy time stamp for the pair of `s` and `hp`: what
`deleteIndexEntry` leaves on each of them, as it deletes a truthy stamp and keeps a `0`. -/
def Released (d : Dispatcher) (s hp : String) : Prop :=
  (indexGet d.connectedServicePeers s hp).any (· ≠ 0) = false ∧
    (indexGet d.connectedPeerServices hp s).any (· ≠ 0) = false

/-- `IdlePruned` reads the peer index and the prune table only. -/
theorem IdlePruned.of_indices_eq {d d' : Dispatcher} {hp : String} (h : IdlePruned d hp)
    (hi : d'.indices = d.indices) : IdlePruned d' hp := by
  simp only [indices, Prod.mk.injEq] at hi
  unfold IdlePruned; rw [hi.2.1, hi.2.2]; exact h

/-- `Released` reads the two indices only. -/
theorem Released.of_indices_eq {d d' : Dispatcher} {s hp : String} (h : Released d s hp)
    (hi : d'.indices = d.indices) : Released d' s hp := by
  simp only [indices, Prod.mk.injEq] at hi
  unfold Released; rw [hi.1, hi.2.1]; exact h

/-- The step from `d` to `d'` changes the channel, the stored relays and the connected pairs of
the services in `ks` only, keeps the ring and the partial-affinity flag, keeps every idle peer
scheduled for pruning, and in legacy mode keeps the peer index and cancels no prune. -/
structure TouchesOnly (ks : List String) (d d' : Dispatcher) : Prop where
  /-- The channels of the other services stay. -/
  channels : ∀ s, s ∉ ks → d'.subChannels.get s = d.subChannels.get s
  /-- The relays of the other services stay. -/
  relays : ∀ s, s ∉ ks → d'.relaysFor.get s = d.relaysFor.get s
  /-- The connected pairs of the other services stay. -/
  connected : ∀ s, s ∉ ks → ∀ hp,
    indexGet d'.connectedServicePeers s hp = indexGet d.connectedServicePeers s hp
  /-- The peer index keeps the pairs of the other services. -/
  peerServices : ∀ s, s ∉ ks → ∀ hp,
    indexGet d'.connectedPeerServices hp s = indexGet d.connectedPeerServices hp s
  /-- The ring stays. -/
  ring : d'.egressNodes = d.egressNodes
  /-- The partial-affinity flag stays. -/
  flag : d'.partialAffinityEnabled = d.partialAffinityEnabled
  /-- An idle peer scheduled for pruning stays so. -/
  idlePruned : ∀ hp, IdlePruned d hp → IdlePruned d' hp
  /-- In legacy mode, `connectedPeerServices` stays and every scheduled prune stays. -/
  legacy : d.partialAffinityEnabled = false →
    d'.connectedPeerServices = d.connectedPeerServices ∧
      ∀ hp, d.peersToPrune.contains hp → d'.peersToPrune.contains hp

variable {ks : List String}

/-- No step touches nothing. -/
theorem TouchesOnly.refl (ks : List String) (d : Dispatcher) : TouchesOnly ks d d :=
  ⟨fun _ _ => rfl, fun _ _ => rfl, fun _ _ _ => rfl, fun _ _ _ => rfl, rfl, rfl, fun _ h => h,
    fun _ => ⟨rfl, fun _ h => h⟩⟩

/-- Two steps that touch `ks` touch `ks`. -/
theorem TouchesOnly.trans {d₁ d₂ d₃ : Dispatcher} (h₁ : TouchesOnly ks d₁ d₂)
    (h₂ : TouchesOnly ks d₂ d₃) : TouchesOnly ks d₁ d₃ where
  channels s hs := (h₂.channels s hs).trans (h₁.channels s hs)
  relays s hs := (h₂.relays s hs).trans (h₁.relays s hs)
  connected s hs hp := (h₂.connected s hs hp).trans (h₁.connected s hs hp)
  peerServices s hs hp := (h₂.peerServices s hs hp).trans (h₁.peerServices s hs hp)
  ring := h₂.ring.trans h₁.ring
  flag := h₂.flag.trans h₁.flag
  idlePruned hp h := h₂.idlePruned hp (h₁.idlePruned hp h)
  legacy hl :=
    have h₁' := h₁.legacy hl
    have h₂' := h₂.legacy (h₁.flag.trans hl)
    ⟨h₂'.1.trans h₁'.1, fun hp h => h₂'.2 hp (h₁'.2 hp h)⟩

/-- A step that touches `ks` touches every list that contains `ks`. -/
theorem TouchesOnly.mono {ks' : List String} {d d' : Dispatcher} (hk : ks ⊆ ks')
    (h : TouchesOnly ks d d') : TouchesOnly ks' d d' where
  channels s hs := h.channels s fun h' => hs (hk h')
  relays s hs := h.relays s fun h' => hs (hk h')
  connected s hs := h.connected s fun h' => hs (hk h')
  peerServices s hs := h.peerServices s fun h' => hs (hk h')
  ring := h.ring
  flag := h.flag
  idlePruned := h.idlePruned
  legacy := h.legacy

/-- A fold of steps that each touch `ks` touches `ks`. -/
theorem TouchesOnly.foldl {α : Type} {f : Dispatcher → α → Dispatcher} (l : List α)
    {d₀ d : Dispatcher} (h : TouchesOnly ks d₀ d)
    (hf : ∀ d a, d.partialAffinityEnabled = d₀.partialAffinityEnabled → TouchesOnly ks d (f d a)) :
    TouchesOnly ks d₀ (l.foldl f d) :=
  foldl_keeps (P := TouchesOnly ks d₀) l h fun d a _ hd => hd.trans (hf d a hd.flag)

/-- A step that keeps the channel table, the stored relays, the three indices, the ring and the
flag touches no service. -/
theorem TouchesOnly.of_eq {d d' : Dispatcher} (hr : d'.routing = d.routing)
    (hi : d'.indices = d.indices) (he : d'.egressNodes = d.egressNodes)
    (hf : d'.partialAffinityEnabled = d.partialAffinityEnabled) : TouchesOnly ks d d' := by
  have hidle := fun hp (h : IdlePruned d hp) => h.of_indices_eq hi
  simp only [routing, indices, Prod.mk.injEq] at hr hi
  exact ⟨fun s _ => by rw [hr.1], fun s _ => by rw [hr.2.1], fun s _ hp => by rw [hi.1],
    fun s _ hp => by rw [hi.2.1], he, hf, hidle, fun _ => ⟨hi.2.1, fun _ h => hi.2.2 ▸ h⟩⟩

/-- A step that changes the channel table at `s` only and keeps the rest touches `[s]`. -/
theorem TouchesOnly.of_channel {s : String} {d d' : Dispatcher}
    (hc : ∀ s', s' ≠ s → d'.subChannels.get s' = d.subChannels.get s')
    (hr : d'.relaysFor = d.relaysFor) (hi : d'.indices = d.indices)
    (he : d'.egressNodes = d.egressNodes)
    (hf : d'.partialAffinityEnabled = d.partialAffinityEnabled) : TouchesOnly [s] d d' := by
  have hidle := fun hp (h : IdlePruned d hp) => h.of_indices_eq hi
  simp only [indices, Prod.mk.injEq] at hi
  exact ⟨fun s' hs' => hc s' fun h => hs' (List.mem_singleton.mpr h), fun s _ => by rw [hr],
    fun s _ hp => by rw [hi.1], fun s _ hp => by rw [hi.2.1], he, hf, hidle,
    fun _ => ⟨hi.2.1, fun _ h => hi.2.2 ▸ h⟩⟩

/-- Setting the channel of `s` touches `[s]`. -/
theorem TouchesOnly.setChannel (d : Dispatcher) (s : String) (ch : SubChannel) :
    TouchesOnly [s] d { d with subChannels := d.subChannels.set s ch } :=
  .of_channel (fun s' hs' => by simp [hs']) rfl rfl rfl rfl

/-- Storing the relays of `s` touches `[s]`. -/
theorem TouchesOnly.setRelays (d : Dispatcher) (s : String) (relays : List String) :
    TouchesOnly [s] d { d with relaysFor := d.relaysFor.set s relays } :=
  ⟨fun _ _ => rfl, fun s' hs' => by simp [List.mem_singleton.not.mp hs'], fun _ _ _ => rfl,
    fun _ _ _ => rfl, rfl, rfl, fun _ h => h, fun _ => ⟨rfl, fun _ h => h⟩⟩

/-- Changing the channel of `s` touches `[s]`. -/
theorem TouchesOnly.modifyChannel (d : Dispatcher) (s : String) (f : SubChannel → SubChannel) :
    TouchesOnly [s] d (d.modifyChannel s f) := by
  unfold Dispatcher.modifyChannel
  split
  · exact .setChannel d s _
  · exact .refl _ d

/-- Changing a root peer touches no service. -/
theorem TouchesOnly.modifyPeer (d : Dispatcher) (hp : String) (f : Peer → Peer) :
    TouchesOnly ks d (d.modifyPeer hp f) := by
  unfold Dispatcher.modifyPeer
  split
  · exact .of_eq rfl rfl rfl rfl
  · exact .refl ks d

/-- Adding a peer to the channel of `s` touches `[s]`. -/
theorem TouchesOnly._getServicePeer (d : Dispatcher) (s hp : String) :
    TouchesOnly [s] d (d._getServicePeer s hp) := by
  unfold Dispatcher._getServicePeer
  split
  · split
    · exact .refl _ d
    · exact .of_channel (fun s' hs' => by simp [hs']) rfl rfl rfl rfl
  · exact .refl _ d

/-- Storing missing relays of `s` touches `[s]`. -/
theorem TouchesOnly.ensureRelays (d : Dispatcher) (s : String) :
    TouchesOnly [s] d (d.ensureRelays s) := by
  unfold Dispatcher.ensureRelays
  split
  · exact .refl _ d
  · exact .setRelays d s _

/-- Creating the channel of `s` touches `[s]`. -/
theorem TouchesOnly.createServiceChannel (d : Dispatcher) (s : String) :
    TouchesOnly [s] d (createServiceChannel cfg d s) := by
  simp only [Dispatcher.createServiceChannel]
  refine TouchesOnly.trans ?_ (.modifyChannel _ s _)
  split
  · exact (TouchesOnly.ensureRelays d s).trans (.setChannel _ s _)
  · exact ((TouchesOnly.ensureRelays d s).trans (.setChannel _ s _)).foldl _ fun d w _ =>
      ._getServicePeer d s w

/-- Getting or creating the channel of `s` touches `[s]`. -/
theorem TouchesOnly.getOrCreateServiceChannel (d : Dispatcher) (s : String) :
    TouchesOnly [s] d (getOrCreateServiceChannel cfg d s) := by
  unfold Dispatcher.getOrCreateServiceChannel
  split
  · exact .refl _ d
  · exact .createServiceChannel cfg d s

/-- `getPartialRange` for `s` touches `[s]`. -/
theorem TouchesOnly.ensurePartialRange (d : Dispatcher) (s : String) :
    TouchesOnly [s] d (ensurePartialRange cfg d s) := by
  unfold Dispatcher.ensurePartialRange
  split
  · exact .refl _ d
  · exact (TouchesOnly.getOrCreateServiceChannel cfg d s).trans (.of_eq rfl rfl rfl rfl)

/-- Giving a stored range new relays touches no service. -/
theorem TouchesOnly.setRangeRelays (d : Dispatcher) (s : String) (l : List String) :
    TouchesOnly ks d (d.setRangeRelays s l) :=
  .of_eq (routing_setRangeRelays d s l) (indices_setRangeRelays d s l)
    (by unfold Dispatcher.setRangeRelays; split <;> rfl)
    (partialAffinityEnabled_setRangeRelays d s l)

/-- Connecting a worker under partial affinity touches its service only; in legacy mode it
would cancel a prune. -/
theorem TouchesOnly.ensurePeerConnected {d : Dispatcher} (hpa : d.partialAffinityEnabled = true)
    (s hp : String) (now : Nat) : TouchesOnly [s] d (d.ensurePeerConnected s hp now) := by
  simp only [Dispatcher.ensurePeerConnected, connectIfPartial, hpa, if_true, connectPeer]
  refine TouchesOnly.trans ?_ (.modifyPeer _ hp _)
  refine ⟨fun _ _ => rfl, fun _ _ => rfl, fun s' hs' hp' => ?_, fun s' hs' hp' => ?_, rfl, rfl,
    fun hp' h => ?_, fun hl => nomatch hpa.symm.trans hl⟩
  · simp [cancelPrune, addConnected, List.mem_singleton.not.mp hs']
  · simp [cancelPrune, addConnected, List.mem_singleton.not.mp hs']
  · by_cases hw : hp' = hp
    · subst hw
      intro hidle
      simp [cancelPrune, addConnected, all_isEmpty_addIndexEntry] at hidle
    · intro hidle
      simp only [cancelPrune, addConnected, get_addIndexEntry_of_ne _ _ hw] at hidle
      simp only [cancelPrune, JsMap.contains, JsMap.get_delete, if_neg hw]
      exact h hidle

/-- `ensurePeerDisconnected` drops its pair from `connectedServicePeers` under partial
affinity. -/
@[simp]
theorem connectedServicePeers_ensurePeerDisconnected (d : Dispatcher) (s hp reason : String)
    (now : Nat) : (d.ensurePeerDisconnected s hp reason now).connectedServicePeers =
      if d.partialAffinityEnabled then deleteIndexEntry d.connectedServicePeers s hp
      else d.connectedServicePeers := by
  simp only [ensurePeerDisconnected, pruneIfIdle, disconnectIfPartial, deleteConnected]
  split_ifs <;> rfl

/-- `ensurePeerDisconnected` drops its pair from `connectedPeerServices` under partial
affinity. -/
@[simp]
theorem connectedPeerServices_ensurePeerDisconnected_eq (d : Dispatcher) (s hp reason : String)
    (now : Nat) : (d.ensurePeerDisconnected s hp reason now).connectedPeerServices =
      if d.partialAffinityEnabled then deleteIndexEntry d.connectedPeerServices hp s
      else d.connectedPeerServices := by
  simp only [ensurePeerDisconnected, pruneIfIdle, disconnectIfPartial, deleteConnected]
  split_ifs <;> rfl

/-- `pruneIfIdle` keeps every idle peer scheduled for pruning. -/
theorem IdlePruned.pruneIfIdle {d : Dispatcher} {hp : String} (h : IdlePruned d hp)
    (w reason : String) (now : Nat) : IdlePruned (d.pruneIfIdle w reason now) hp := by
  unfold Dispatcher.pruneIfIdle
  split
  · exact fun hidle => JsMap.contains_set_of_contains _ _ (h hidle)
  · exact h

/-- `pruneIfIdle` schedules its peer when it is idle. -/
theorem idlePruned_pruneIfIdle (d : Dispatcher) (hp reason : String) (now : Nat) :
    IdlePruned (d.pruneIfIdle hp reason now) hp := by
  unfold Dispatcher.pruneIfIdle
  split
  · exact fun _ => JsMap.contains_set_self _ _ _
  · exact fun h => absurd h ‹_›

/-- Dropping the pair of another peer keeps an idle peer scheduled for pruning. -/
theorem IdlePruned.disconnectIfPartial {d : Dispatcher} {hp w : String} (h : IdlePruned d hp)
    (hw : hp ≠ w) (s : String) : IdlePruned (d.disconnectIfPartial s w) hp := by
  unfold Dispatcher.disconnectIfPartial
  split
  · exact fun hidle => h (by simpa only [deleteConnected, get_deleteIndexEntry_of_ne s hw] using hidle)
  · exact h

/-- `ensurePeerDisconnected` leaves its own peer scheduled for pruning when it is idle. -/
theorem idlePruned_ensurePeerDisconnected (d : Dispatcher) (s hp reason : String) (now : Nat) :
    IdlePruned (d.ensurePeerDisconnected s hp reason now) hp :=
  idlePruned_pruneIfIdle _ hp reason now

/-- `ensurePeerDisconnected` keeps every idle peer scheduled for pruning. -/
theorem IdlePruned.ensurePeerDisconnected {d : Dispatcher} {hp : String} (h : IdlePruned d hp)
    (s w reason : String) (now : Nat) : IdlePruned (d.ensurePeerDisconnected s w reason now) hp := by
  by_cases hw : hp = w
  · exact hw ▸ idlePruned_ensurePeerDisconnected d s w reason now
  · exact (h.disconnectIfPartial hw s).pruneIfIdle w reason now

/-- `ensurePeerDisconnected` keeps the ring. -/
theorem egressNodes_ensurePeerDisconnected (d : Dispatcher) (s hp reason : String) (now : Nat) :
    (d.ensurePeerDisconnected s hp reason now).egressNodes = d.egressNodes := by
  simp only [ensurePeerDisconnected, pruneIfIdle, disconnectIfPartial, deleteConnected]
  split_ifs <;> rfl

/-- Disconnecting a peer from `s` touches `[s]`. -/
theorem TouchesOnly.ensurePeerDisconnected (d : Dispatcher) (s hp reason : String) (now : Nat) :
    TouchesOnly [s] d (d.ensurePeerDisconnected s hp reason now) where
  channels s' _ := congrArg (·.1.get s') (routing_ensurePeerDisconnected d s hp reason now)
  relays s' _ := congrArg (·.2.1.get s') (routing_ensurePeerDisconnected d s hp reason now)
  connected s' hs' hp' := by
    rw [connectedServicePeers_ensurePeerDisconnected]
    split <;> simp [List.mem_singleton.not.mp hs']
  peerServices s' hs' hp' := by
    rw [connectedPeerServices_ensurePeerDisconnected_eq]
    split <;> simp [List.mem_singleton.not.mp hs']
  ring := egressNodes_ensurePeerDisconnected d s hp reason now
  flag := partialAffinityEnabled_ensurePeerDisconnected d s hp reason now
  idlePruned _ h := h.ensurePeerDisconnected s hp reason now
  legacy hl := ⟨connectedPeerServices_ensurePeerDisconnected hl s hp reason now,
    fun _ h => peersToPrune_ensurePeerDisconnected hl s hp reason now (.inr h)⟩

/-- Under partial affinity, `ensurePartialConnections` for `s` touches `[s]`. -/
theorem TouchesOnly.ensurePartialConnections {d : Dispatcher}
    (hpa : d.partialAffinityEnabled = true) (s : String) (now : Nat) :
    TouchesOnly [s] d (ensurePartialConnections cfg d s now).2 := by
  have h₁ := TouchesOnly.ensurePartialRange cfg d s
  simp only [Dispatcher.ensurePartialConnections]
  split
  · exact h₁
  · split
    · exact h₁.foldl _ fun d w _ => ._getServicePeer d s w
    · refine ((h₁.foldl _ fun d w _ => ._getServicePeer d s w).foldl _ fun d w hf => ?_).foldl _
        fun d w _ => ?_
      · exact (TouchesOnly._getServicePeer d s w).trans
          (.ensurePeerConnected (by simp [hf, hpa]) s w now)
      · exact (TouchesOnly._getServicePeer d s w).trans (.ensurePeerDisconnected _ s w _ now)

/-- `changeToExit` of `s` touches `[s]`. -/
theorem TouchesOnly.changeToExit (d : Dispatcher) (s : String) :
    TouchesOnly [s] d (d.changeToExit s) :=
  .modifyChannel d s _

/-- `updateServiceNodes` of `s` touches `[s]`. -/
theorem TouchesOnly.updateServiceNodes (d : Dispatcher) (s : String) (now : Nat) :
    TouchesOnly [s] d (updateServiceNodes cfg d s now) := by
  unfold Dispatcher.updateServiceNodes
  split
  · exact .ensurePartialConnections cfg ‹_› s now
  · exact .refl _ d

/-- `changeToForward` of `s` touches `[s]`. -/
theorem TouchesOnly.changeToForward (d : Dispatcher) (l : List String) (s : String) (now : Nat) :
    TouchesOnly [s] d (d.changeToForward l s now) :=
  ((TouchesOnly.modifyChannel d s _).foldl _ fun d w _ => .ensurePeerDisconnected d s w _ now).foldl
    _ fun d w _ => ._getServicePeer d s w

/-- `updateExitNodes` of `s` touches `[s]`. -/
theorem TouchesOnly.updateExitNodes (d : Dispatcher) (l : List String) (s : String) :
    TouchesOnly [s] d (d.updateExitNodes l s) :=
  (TouchesOnly.modifyChannel d s _).foldl _ fun d w _ => ._getServicePeer d s w

/-- Giving the range new relays when partial affinity is on touches no service. -/
theorem TouchesOnly.setRangeRelaysIf (b : Bool) (d : Dispatcher) (s : String) (l : List String) :
    TouchesOnly ks d (if b then d.setRangeRelays s l else d) := by
  split
  · exact .setRangeRelays d s l
  · exact .refl ks d

/-- Dropping the range when partial affinity is on touches no service. -/
theorem TouchesOnly.dropRangeIf (b : Bool) (d : Dispatcher) (s : String) :
    TouchesOnly ks d (if b then { d with partialRanges := d.partialRanges.delete s } else d) := by
  split
  · exact .of_eq rfl rfl rfl rfl
  · exact .refl ks d

/-- One pass of the loop touches its own service only. -/
theorem TouchesOnly.updateServiceChannel (d : Dispatcher) (s : String) (now : Nat) :
    TouchesOnly [s] d (updateServiceChannel cfg d s now) := by
  have h₀ := TouchesOnly.setRelays d s (sortStrings (d.egressNodes.exitsFor s))
  simp only [Dispatcher.updateServiceChannel]
  split
  · refine iteInduction (motive := TouchesOnly [s] d) (fun _ => ?_) (fun _ => ?_)
    · exact (h₀.trans (.setRangeRelaysIf _ _ s _)).trans (.changeToExit _ s)
    · exact (h₀.trans (.setRangeRelaysIf _ _ s _)).trans (.updateServiceNodes cfg _ s now)
  · refine iteInduction (motive := TouchesOnly [s] d) (fun _ => ?_) (fun _ => ?_)
    · exact (h₀.trans (.dropRangeIf _ _ s)).trans (.changeToForward _ _ s now)
    · exact (h₀.trans (.dropRangeIf _ _ s)).trans (.updateExitNodes _ _ s)

/-- A step that touches other services keeps the mode of `s`. -/
theorem TouchesOnly.channelMode {d d' : Dispatcher} (h : TouchesOnly ks d d') {s : String}
    (hs : s ∉ ks) : d'.channelMode s = d.channelMode s := by
  simp only [Dispatcher.channelMode, h.channels s hs]

/-- A step that touches other services keeps the peers of `s`. -/
theorem TouchesOnly.channelHolds {d d' : Dispatcher} (h : TouchesOnly ks d d') {s : String}
    (hs : s ∉ ks) (hp : String) : d'.channelHolds s hp = d.channelHolds s hp := by
  simp only [Dispatcher.channelHolds, h.channels s hs]

/-- A step that touches other services keeps the peer list of `s`. -/
theorem TouchesOnly.channelPeers {d d' : Dispatcher} (h : TouchesOnly ks d d') {s : String}
    (hs : s ∉ ks) : d'.channelPeers s = d.channelPeers s := by
  simp only [Dispatcher.channelPeers, h.channels s hs]

end Touches

/-! ## What one pass does to its own channel -/

section Pass

/-- The channel table after `modifyChannel`. -/
@[simp]
theorem get_modifyChannel (d : Dispatcher) (s : String) (f : SubChannel → SubChannel)
    (s' : String) : (d.modifyChannel s f).subChannels.get s' =
      if s' = s then (d.subChannels.get s).map f else d.subChannels.get s' := by
  unfold Dispatcher.modifyChannel
  split <;> rename_i h <;> by_cases hs : s' = s <;> simp [h, hs]

/-- Giving a range new relays leaves the sub channels alone. -/
@[simp]
theorem subChannels_setRangeRelays (d : Dispatcher) (s : String) (l : List String) :
    (d.setRangeRelays s l).subChannels = d.subChannels :=
  congrArg (·.1) (routing_setRangeRelays d s l)

/-- Giving a range new relays leaves the stored relays alone. -/
@[simp]
theorem relaysFor_setRangeRelays (d : Dispatcher) (s : String) (l : List String) :
    (d.setRangeRelays s l).relaysFor = d.relaysFor :=
  congrArg (·.2.1) (routing_setRangeRelays d s l)

/-- `ensurePeerConnected` leaves the sub channels alone. -/
@[simp]
theorem subChannels_ensurePeerConnected (d : Dispatcher) (s hp : String) (now : Nat) :
    (d.ensurePeerConnected s hp now).subChannels = d.subChannels :=
  congrArg (·.1) (routing_ensurePeerConnected d s hp now)

/-- `ensurePeerDisconnected` leaves the stored relays alone. -/
@[simp]
theorem relaysFor_ensurePeerDisconnected (d : Dispatcher) (s hp reason : String) (now : Nat) :
    (d.ensurePeerDisconnected s hp reason now).relaysFor = d.relaysFor :=
  congrArg (·.2.1) (routing_ensurePeerDisconnected d s hp reason now)

/-- `ensurePeerConnected` leaves the stored relays alone. -/
@[simp]
theorem relaysFor_ensurePeerConnected (d : Dispatcher) (s hp : String) (now : Nat) :
    (d.ensurePeerConnected s hp now).relaysFor = d.relaysFor :=
  congrArg (·.2.1) (routing_ensurePeerConnected d s hp now)

/-- `ensurePeerConnected` keeps every mode. -/
@[simp]
theorem channelMode_ensurePeerConnected (d : Dispatcher) (s hp : String) (now : Nat) (s' : String) :
    (d.ensurePeerConnected s hp now).channelMode s' = d.channelMode s' := by
  simp only [channelMode, subChannels_ensurePeerConnected]

/-- `ensurePeerDisconnected` keeps every mode. -/
@[simp]
theorem channelMode_ensurePeerDisconnected (d : Dispatcher) (s hp reason : String) (now : Nat)
    (s' : String) :
    (d.ensurePeerDisconnected s hp reason now).channelMode s' = d.channelMode s' := by
  simp only [channelMode, subChannels_ensurePeerDisconnected]

/-- Rerunning the partial connections of an existing channel keeps its mode and every stored
relay list. -/
theorem ensurePartialConnections_keeps_mode {d : Dispatcher} {s : String}
    (hs : d.subChannels.contains s) (now : Nat) :
    (ensurePartialConnections cfg d s now).2.channelMode s = d.channelMode s ∧
      (ensurePartialConnections cfg d s now).2.relaysFor = d.relaysFor := by
  have h₁ : (ensurePartialRange cfg d s).channelMode s = d.channelMode s ∧
      (ensurePartialRange cfg d s).relaysFor = d.relaysFor := by
    unfold ensurePartialRange
    split
    · exact ⟨rfl, rfl⟩
    · simp [getOrCreateServiceChannel, hs, channelMode]
  have hkeep : ∀ (l : List String) (f : Dispatcher → String → Dispatcher) (d' : Dispatcher),
      (∀ d w, (f d w).channelMode s = d.channelMode s ∧ (f d w).relaysFor = d.relaysFor) →
      d'.channelMode s = d.channelMode s ∧ d'.relaysFor = d.relaysFor →
      (l.foldl f d').channelMode s = d.channelMode s ∧ (l.foldl f d').relaysFor = d.relaysFor :=
    fun l f d' hf h => foldl_keeps (P := fun d' => d'.channelMode s = d.channelMode s ∧
      d'.relaysFor = d.relaysFor) l h fun d w _ h => ⟨(hf d w).1.trans h.1, (hf d w).2.trans h.2⟩
  simp only [Dispatcher.ensurePartialConnections]
  split
  · exact h₁
  · have hget : ∀ (d : Dispatcher) (w : String),
        (d._getServicePeer s w).channelMode s = d.channelMode s ∧
          (d._getServicePeer s w).relaysFor = d.relaysFor :=
      fun d w => ⟨channelMode__getServicePeer d s w s, relaysFor__getServicePeer d s w⟩
    split
    · exact hkeep _ _ _ hget h₁
    · exact hkeep _ _ _ (fun d w => by simp)
        (hkeep _ _ _ (fun d w => by simp) (hkeep _ _ _ hget h₁))

/-- `updateServiceNodes` keeps the mode of an existing channel and every stored relay list. -/
theorem updateServiceNodes_keeps_mode {d : Dispatcher} {s : String}
    (hs : d.subChannels.contains s) (now : Nat) :
    (updateServiceNodes cfg d s now).channelMode s = d.channelMode s ∧
      (updateServiceNodes cfg d s now).relaysFor = d.relaysFor := by
  unfold Dispatcher.updateServiceNodes
  split
  · exact ensurePartialConnections_keeps_mode cfg hs now
  · exact ⟨rfl, rfl⟩

/-- `changeToExit` puts an existing channel in exit mode. -/
theorem channelMode_changeToExit {d : Dispatcher} {s : String} (hs : d.subChannels.contains s) :
    (d.changeToExit s).channelMode s = some .exit := by
  obtain ⟨ch, hch⟩ := Option.isSome_iff_exists.mp hs
  simp [changeToExit, channelMode, hch]

/-- `changeToForward` puts an existing channel in forward mode. -/
theorem channelMode_changeToForward {d : Dispatcher} {s : String}
    (hs : d.subChannels.contains s) (l : List String) (now : Nat) :
    (d.changeToForward l s now).channelMode s = some .forward := by
  obtain ⟨ch, hch⟩ := Option.isSome_iff_exists.mp hs
  simp only [changeToForward]
  rw [channelMode_foldl__getServicePeer]
  rw [foldl_keeps (P := fun d' => d'.channelMode s = some .forward) _ (by simp [channelMode, hch])
    fun d w _ h => by simpa [channelMode] using h]

/-- After `changeToForward`, the channel holds exactly the exits. -/
theorem channelHolds_changeToForward {d : Dispatcher} {s : String}
    (hs : d.subChannels.contains s) (l : List String) (now : Nat) (hp : String) :
    (d.changeToForward l s now).channelHolds s hp ↔ hp ∈ l := by
  obtain ⟨ch, hch⟩ := Option.isSome_iff_exists.mp hs
  have h : ∀ (peers : List String) (d' : Dispatcher),
      d'.subChannels = (d.modifyChannel s fun ch =>
        { ch with serviceProxyMode := some .forward, peers := [] }).subChannels →
      (peers.foldl (fun d w => d.ensurePeerDisconnected s w "hyperbahn membership change" now)
        d').subChannels = d'.subChannels :=
    fun peers d' _ => foldl_keeps (P := fun d'' => d''.subChannels = d'.subChannels) peers rfl
      fun d w _ h => by simp [h]
  simp only [changeToForward]
  rw [channelHolds_foldl__getServicePeer]
  · simp [channelHolds, h _ _ rfl, hch]
  · simp [JsMap.contains, h _ _ rfl, hch]

/-- `changeToForward` leaves the stored relays alone. -/
theorem relaysFor_changeToForward (d : Dispatcher) (l : List String) (s : String) (now : Nat) :
    (d.changeToForward l s now).relaysFor = d.relaysFor := by
  simp only [changeToForward, relaysFor_foldl__getServicePeer]
  exact foldl_keeps (P := fun d' => d'.relaysFor = d.relaysFor) _ (by simp) fun d w _ h => by
    simp [h]

/-- Under partial affinity `ensurePeerDisconnected` releases its own pair. -/
theorem released_ensurePeerDisconnected {d : Dispatcher} (hpa : d.partialAffinityEnabled = true)
    (s hp reason : String) (now : Nat) : Released (d.ensurePeerDisconnected s hp reason now) s hp := by
  rw [Released, connectedServicePeers_ensurePeerDisconnected,
    connectedPeerServices_ensurePeerDisconnected_eq, if_pos hpa, if_pos hpa]
  exact ⟨indexGet_deleteIndexEntry_self _ _ _, indexGet_deleteIndexEntry_self _ _ _⟩

/-- Disconnecting another peer from the service keeps a pair released. -/
theorem Released.ensurePeerDisconnected {d : Dispatcher} {s hp w : String} (h : Released d s hp)
    (hw : hp ≠ w) (reason : String) (now : Nat) :
    Released (d.ensurePeerDisconnected s w reason now) s hp := by
  rw [Released, connectedServicePeers_ensurePeerDisconnected,
    connectedPeerServices_ensurePeerDisconnected_eq]
  split
  · simpa [Released, hw] using h
  · exact h

/-- Under partial affinity, a run of `ensurePeerDisconnected` over a list of workers releases
each of them for the service and leaves it scheduled for pruning when it is idle. -/
theorem released_foldl_ensurePeerDisconnected {d : Dispatcher}
    (hpa : d.partialAffinityEnabled = true) {s hp : String} (reason : String) (now : Nat)
    (l : List String) (hin : hp ∈ l ∨ (Released d s hp ∧ IdlePruned d hp)) :
    Released (l.foldl (fun d w => d.ensurePeerDisconnected s w reason now) d) s hp ∧
      IdlePruned (l.foldl (fun d w => d.ensurePeerDisconnected s w reason now) d) hp := by
  induction l generalizing d with
  | nil => exact hin.resolve_left (List.not_mem_nil hp)
  | cons a l ih =>
    refine ih (by simpa using hpa) ?_
    by_cases ha : hp = a
    · subst ha
      exact .inr ⟨released_ensurePeerDisconnected hpa s hp reason now,
        idlePruned_ensurePeerDisconnected d s hp reason now⟩
    · rcases hin with h | ⟨hr, hi⟩
      · exact .inl ((List.mem_cons.mp h).resolve_left ha)
      · exact .inr ⟨hr.ensurePeerDisconnected ha reason now, hi.ensurePeerDisconnected s a reason now⟩

/-- Under partial affinity, `changeToForward` releases every former peer of the channel for the
service and leaves it scheduled for pruning when it is idle. -/
theorem changeToForward_releases {d : Dispatcher} (hpa : d.partialAffinityEnabled = true)
    {hp : String} (l : List String) (s : String) (now : Nat) (hin : hp ∈ d.channelPeers s) :
    Released (d.changeToForward l s now) s hp ∧ IdlePruned (d.changeToForward l s now) hp := by
  simp only [changeToForward]
  have h := released_foldl_ensurePeerDisconnected
    (d := d.modifyChannel s fun ch => { ch with serviceProxyMode := some .forward, peers := [] })
    (by simpa using hpa) (s := s) "hyperbahn membership change" now _ (.inl hin)
  exact ⟨h.1.of_indices_eq (indices_foldl__getServicePeer _ s l),
    h.2.of_indices_eq (indices_foldl__getServicePeer _ s l)⟩

/-- `updateExitNodes` keeps every mode. -/
theorem channelMode_updateExitNodes (d : Dispatcher) (l : List String) (s s' : String) :
    (d.updateExitNodes l s).channelMode s' = d.channelMode s' := by
  simp only [updateExitNodes, channelMode_foldl__getServicePeer]
  exact channelMode_modifyChannel
    (f := fun ch => { ch with peers := ch.peers.filter (l.contains ·) }) (fun _ => rfl) d s s'

/-- After `updateExitNodes`, the channel holds exactly the exits. -/
theorem channelHolds_updateExitNodes {d : Dispatcher} {s : String}
    (hs : d.subChannels.contains s) (l : List String) (hp : String) :
    (d.updateExitNodes l s).channelHolds s hp ↔ hp ∈ l := by
  obtain ⟨ch, hch⟩ := Option.isSome_iff_exists.mp hs
  simp only [updateExitNodes]
  rw [channelHolds_foldl__getServicePeer (by simp [JsMap.contains, hch])]
  simp only [channelHolds, get_modifyChannel, hch, if_true, Option.map_some', Option.any_some,
    List.elem_iff, List.contains, List.mem_filter]
  constructor
  · rintro (⟨-, h⟩ | h)
    · simpa using h
    · exact h
  · exact .inr

/-- `updateExitNodes` leaves the stored relays alone. -/
theorem relaysFor_updateExitNodes (d : Dispatcher) (l : List String) (s : String) :
    (d.updateExitNodes l s).relaysFor = d.relaysFor := by
  simp [updateExitNodes, relaysFor_foldl__getServicePeer]

end Pass

/-! ## A reconciled channel -/

section Reconciled

/-- What `updateServiceChannel` leaves in `d` for a service `s` whose channel had a mode in the
state `d₀` before the loop: the mode the ring gives; as a forward, exactly the exits of the ring
as peers; the sorted exits as relays; and if the channel flipped from exit to forward, each of
its former workers passed through `ensurePeerDisconnected`. Under partial affinity that is the
pair dropped from both connected indices and the worker scheduled for pruning once no service is
connected to it; in legacy mode, the worker scheduled for pruning unless a service was connected
to it before the loop. -/
structure Reconciled (d₀ d : Dispatcher) (s : String) : Prop where
  /-- Exit mode iff the ring names this relay an exit of `s`. -/
  mode : d.channelMode s = some (if cfg.isExitFor d₀.egressNodes s then .exit else .forward)
  /-- A forward channel holds exactly the exits. -/
  peers : cfg.isExitFor d₀.egressNodes s = false →
    ∀ hp, d.channelHolds s hp ↔ hp ∈ d₀.egressNodes.exitsFor s
  /-- `relaysFor[s]` is the sorted list of the exits. -/
  relays : d.relaysFor.get s = some (sortStrings (d₀.egressNodes.exitsFor s))
  /-- The former workers of a channel that flipped from exit to forward are let go. -/
  flipped : d₀.channelMode s = some .exit → cfg.isExitFor d₀.egressNodes s = false →
    ∀ hp ∈ d₀.channelPeers s,
      (d₀.partialAffinityEnabled = true → Released d s hp ∧ IdlePruned d hp) ∧
      (d₀.partialAffinityEnabled = false →
        (d₀.connectedPeerServices.get hp).all (·.isEmpty) → d.peersToPrune.contains hp)

/-- A step that touches other services leaves a reconciled channel reconciled. -/
theorem Reconciled.frame {d₀ d d' : Dispatcher} {s : String} (h : Reconciled cfg d₀ d s)
    (ht : TouchesOnly ks d d') (hs : s ∉ ks)
    (hflag : d.partialAffinityEnabled = d₀.partialAffinityEnabled) : Reconciled cfg d₀ d' s where
  mode := (ht.channelMode hs).trans h.mode
  peers hx hp := by rw [ht.channelHolds hs]; exact h.peers hx hp
  relays := (ht.relays s hs).trans h.relays
  flipped hm hx hp hin :=
    have hf := h.flipped hm hx hp hin
    ⟨fun hpa => ⟨⟨by rw [ht.connected s hs]; exact (hf.1 hpa).1.1,
        by rw [ht.peerServices s hs]; exact (hf.1 hpa).1.2⟩, ht.idlePruned hp (hf.1 hpa).2⟩,
      fun hl hidle => (ht.legacy (hflag.trans hl)).2 hp (hf.2 hl hidle)⟩

/-- Reconciled against a state that differs from `d₀` on other services only is reconciled
against `d₀`. -/
theorem Reconciled.of_touchesOnly {d₀ d₁ d : Dispatcher} {s : String} (h : Reconciled cfg d₁ d s)
    (ht : TouchesOnly ks d₀ d₁) (hs : s ∉ ks) : Reconciled cfg d₀ d s where
  mode := ht.ring ▸ h.mode
  peers := ht.ring ▸ h.peers
  relays := ht.ring ▸ h.relays
  flipped hm hx hp hin := by
    rw [← ht.channelMode hs] at hm
    rw [← ht.ring] at hx
    rw [← ht.channelPeers hs] at hin
    refine ⟨fun hpa => (h.flipped hm hx hp hin).1 (ht.flag.trans hpa), fun hl hidle => ?_⟩
    exact (h.flipped hm hx hp hin).2 (ht.flag.trans hl) ((ht.legacy hl).1 ▸ hidle)

/-- A channel with a mode other than `m` has the other mode. -/
theorem channelMode_eq_of_isSome {d : Dispatcher} {s : String} (hs : (d.channelMode s).isSome)
    {m : ServiceProxyMode} (hm : d.channelMode s ≠ some m) :
    d.channelMode s = some (if m = .exit then .forward else .exit) := by
  obtain ⟨m', hm'⟩ := Option.isSome_iff_exists.mp hs
  rw [hm'] at hm ⊢
  cases m <;> cases m' <;> simp_all

/-- The exit branch of `updateServiceChannel`, from a state `d₂` with the channel table of `d`
and the new relays. -/
theorem reconciled_exit {d d₂ : Dispatcher} {s : String} (hx : cfg.isExitFor d.egressNodes s = true)
    (hs : (d.channelMode s).isSome) (hch : d₂.subChannels = d.subChannels)
    (hr : d₂.relaysFor.get s = some (sortStrings (d.egressNodes.exitsFor s))) (now : Nat) :
    Reconciled cfg d (if d₂.channelMode s = some .forward then d₂.changeToExit s
      else updateServiceNodes cfg d₂ s now) s := by
  have hmode : d₂.channelMode s = d.channelMode s := by simp only [channelMode, hch]
  have hc : d₂.subChannels.contains s := hch ▸ contains_of_channelMode_isSome hs
  refine ⟨?_, fun h => (nomatch hx.symm.trans h), ?_, fun _ h => (nomatch hx.symm.trans h)⟩
  · rw [hx, if_pos rfl]
    split
    · exact channelMode_changeToExit hc
    · rw [(updateServiceNodes_keeps_mode cfg hc now).1, hmode]
      simpa using channelMode_eq_of_isSome hs (m := .forward) (by rwa [← hmode])
  · split
    · simpa [changeToExit] using hr
    · rw [(updateServiceNodes_keeps_mode cfg hc now).2, hr]

/-- The forward branch of `updateServiceChannel`, from a state `d₂` with the channel table, the
indices and the flag of `d` and the new relays. -/
theorem reconciled_forward {d d₂ : Dispatcher} {s : String}
    (hx : cfg.isExitFor d.egressNodes s = false) (hs : (d.channelMode s).isSome)
    (hch : d₂.subChannels = d.subChannels)
    (hr : d₂.relaysFor.get s = some (sortStrings (d.egressNodes.exitsFor s)))
    (hi : d₂.indices = d.indices) (hf : d₂.partialAffinityEnabled = d.partialAffinityEnabled)
    (now : Nat) :
    Reconciled cfg d (if d₂.channelMode s = some .exit then
      d₂.changeToForward (d.egressNodes.exitsFor s) s now
      else d₂.updateExitNodes (d.egressNodes.exitsFor s) s) s := by
  have hmode : d₂.channelMode s = d.channelMode s := by simp only [channelMode, hch]
  have hpeers : d₂.channelPeers s = d.channelPeers s := by simp only [channelPeers, hch]
  have hc : d₂.subChannels.contains s := hch ▸ contains_of_channelMode_isSome hs
  simp only [indices, Prod.mk.injEq] at hi
  refine ⟨?_, fun _ hp => ?_, ?_, fun hm _ hp hin => ?_⟩
  · rw [hx, if_neg Bool.false_ne_true]
    split
    · exact channelMode_changeToForward hc _ now
    · rw [channelMode_updateExitNodes, hmode]
      simpa using channelMode_eq_of_isSome hs (m := .exit) (by rwa [← hmode])
  · split
    · exact channelHolds_changeToForward hc _ now hp
    · exact channelHolds_updateExitNodes hc _ hp
  · split <;> simp only [relaysFor_changeToForward, relaysFor_updateExitNodes, hr]
  · rw [if_pos (hmode.trans hm)]
    rw [← hpeers] at hin
    exact ⟨fun hpa => changeToForward_releases (hf.trans hpa) _ s now hin,
      fun hl hidle => changeToForward_schedules_prune (hf.trans hl) (hi.2.1 ▸ hidle) _ s now hin⟩

/-- One pass of the loop reconciles the channel it updates. -/
theorem reconciled_updateServiceChannel {d : Dispatcher} {s : String}
    (hs : (d.channelMode s).isSome) (now : Nat) :
    Reconciled cfg d (updateServiceChannel cfg d s now) s := by
  simp only [Dispatcher.updateServiceChannel]
  split
  · exact reconciled_exit cfg ‹_› hs (by split <;> simp) (by split <;> simp) now
  · exact reconciled_forward cfg (Bool.eq_false_iff.mpr ‹_›) hs (by split <;> rfl)
      (by split <;> simp) (by split <;> rfl) (by split <;> rfl) now

end Reconciled

/-! ## The loop -/

section Loop

/-- The loop of `updateServiceChannels` over a list of services touches those services only. -/
theorem touchesOnly_loop (now : Nat) (l : List String) (d : Dispatcher) :
    TouchesOnly l d (l.foldl (fun d serviceName =>
      if (d.channelMode serviceName).isSome then updateServiceChannel cfg d serviceName now
      else d) d) := by
  induction l generalizing d with
  | nil => exact .refl _ d
  | cons k l ih =>
    refine TouchesOnly.trans ?_ ((ih _).mono (List.subset_cons_self k l))
    refine TouchesOnly.mono (List.singleton_sublist.mpr (List.mem_cons_self k l)).subset ?_
    dsimp only
    split
    · exact .updateServiceChannel cfg d k now
    · exact .refl _ d

/-- Over a list of distinct services not yet touched, the loop reconciles every one with a
channel mode. -/
theorem reconciled_loop {d₀ : Dispatcher} (now : Nat) :
    ∀ {l : List String}, l.Nodup → ∀ {ks : List String}, (∀ k ∈ l, k ∉ ks) →
      ∀ {d : Dispatcher}, TouchesOnly ks d₀ d → ∀ s ∈ l, (d₀.channelMode s).isSome →
        Reconciled cfg d₀ (l.foldl (fun d serviceName =>
          if (d.channelMode serviceName).isSome then updateServiceChannel cfg d serviceName now
          else d) d) s
  | [], _, _, _, _, _, s, hs, _ => absurd hs (List.not_mem_nil s)
  | k :: l, hnd, ks, hks, d, ht, s, hs, hmode => by
    have hk : k ∉ ks := hks k (List.mem_cons_self k l)
    have hmk : (d.channelMode k).isSome ↔ (d₀.channelMode k).isSome := by rw [ht.channelMode hk]
    have hstep : TouchesOnly (ks ++ [k]) d₀
        (if (d.channelMode k).isSome then updateServiceChannel cfg d k now else d) :=
      (ht.mono (List.subset_append_left ks [k])).trans (by
        refine TouchesOnly.mono (List.subset_append_right ks [k]) ?_
        split
        · exact .updateServiceChannel cfg d k now
        · exact .refl _ d)
    rw [List.foldl_cons]
    rcases List.mem_cons.mp hs with rfl | hs
    · have hsome : (d.channelMode s).isSome := hmk.mpr hmode
      rw [if_pos hsome]
      have hrec := (reconciled_updateServiceChannel cfg hsome now).of_touchesOnly cfg ht hk
      exact hrec.frame cfg (touchesOnly_loop cfg now l _) (List.nodup_cons.mp hnd).1
        ((partialAffinityEnabled_updateServiceChannel cfg d s now).trans ht.flag)
    · refine reconciled_loop now (List.nodup_cons.mp hnd).2 (fun k' hk' => ?_) hstep s hs hmode
      rw [List.mem_append, List.mem_singleton, not_or]
      exact ⟨hks k' (List.mem_cons_of_mem k hk'),
        fun h => (List.nodup_cons.mp hnd).1 (h ▸ hk')⟩

/-- The dispatcher's `isExitFor` of a channel with a mode reads the mode. -/
theorem isExitFor_of_channelMode {d : Dispatcher} {s : String} {m : ServiceProxyMode}
    (h : d.channelMode s = some m) : d.isExitFor cfg s = decide (m = .exit) := by
  unfold channelMode at h
  unfold Dispatcher.isExitFor
  cases hc : d.subChannels.get s with
  | none => simp [hc] at h
  | some ch => simp_all

/-- After `updateServiceChannels`, every channel that had a service mode is reconciled with the
ring. -/
theorem reconciled_updateServiceChannels {d : Dispatcher} {s : String}
    (hs : (d.channelMode s).isSome) (now : Nat) :
    Reconciled cfg d (updateServiceChannels cfg d now) s :=
  have h := reconciled_loop cfg now (JsMap.keys_nodup d.subChannels)
    (fun _ _ => List.not_mem_nil _) (TouchesOnly.refl [] d) s
    (JsMap.mem_keys.mpr (contains_of_channelMode_isSome hs)) hs
  ⟨h.mode, h.peers, h.relays, h.flipped⟩

/-- The dispatcher's `isExitFor` of a reconciled channel agrees with the ring's. -/
theorem Reconciled.isExitFor {d₀ d : Dispatcher} {s : String} (h : Reconciled cfg d₀ d s) :
    d.isExitFor cfg s = cfg.isExitFor d₀.egressNodes s := by
  rw [isExitFor_of_channelMode cfg h.mode]
  cases cfg.isExitFor d₀.egressNodes s <;> rfl

/-- For every dispatcher state and every ring, after `updateServiceChannels` every channel with a
service mode is reconciled with the ring, read in the state before the loop, and the
dispatcher's `isExitFor` agrees with the ring's. -/
theorem updateServiceChannels_reconciles (d : Dispatcher) (now : Nat) (s : String)
    (hs : (d.channelMode s).isSome) :
    Reconciled cfg d (updateServiceChannels cfg d now) s ∧
      (updateServiceChannels cfg d now).isExitFor cfg s = cfg.isExitFor d.egressNodes s :=
  have h := reconciled_updateServiceChannels cfg hs now
  ⟨h, h.isExitFor cfg⟩

/-- A partial-affinity run in which `w` serves `s1` and `s2` and the ring then moves `s1` to
another relay; the channel of `s1` has a mode before the reconciliation. -/
theorem updateServiceChannels_reconciles_flipped :
    ∃ d, run (Config.sample "r") (init (Ring.single "r"))
        [(1, .setPartialAffinityEnabled true), (2, .refreshServicePeer "s1" "w"),
          (3, .refreshServicePeer "s2" "w"),
          (4, .egressNodesChanged ⟨fun s => if s = "s1" then ["q"] else ["r"]⟩)] = .ok d ∧
      (d.channelMode "s1").isSome ∧
      Reconciled (Config.sample "r") d (updateServiceChannels (Config.sample "r") d 5) "s1" ∧
      (updateServiceChannels (Config.sample "r") d 5).isExitFor (Config.sample "r") "s1" =
        (Config.sample "r").isExitFor d.egressNodes "s1" := by
  obtain ⟨d, hrun, hs⟩ : ∃ d, run (Config.sample "r") (init (Ring.single "r"))
      [(1, .setPartialAffinityEnabled true), (2, .refreshServicePeer "s1" "w"),
        (3, .refreshServicePeer "s2" "w"),
        (4, .egressNodesChanged ⟨fun s => if s = "s1" then ["q"] else ["r"]⟩)] = .ok d ∧
      (d.channelMode "s1").isSome := ⟨_, rfl, by decide⟩
  exact ⟨d, hrun, hs, updateServiceChannels_reconciles _ d 5 "s1" hs⟩

end Loop

end Dispatcher

end Hyperbahn
