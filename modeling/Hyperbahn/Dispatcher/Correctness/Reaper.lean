import Hyperbahn.Dispatcher.Correctness.Affinity

/-!
# The peer reaper reaps every stale peer, seen this round or not

A tick of the peer reaper rolls `knownPeers` over into `peersToReap` and empties it
(`getPeersToReap`), then runs `reapSinglePeer` on each entry of the old `peersToReap`. The
first thing `reapSinglePeer` does is to spare a peer seen this reap round:
`if (self.knownPeers[hostPort]) return;`. But the table it reads has just been emptied, and the
loop only deletes from it, so the guard never holds during a tick.

`reapPeers_drains_stale_peer` states what a tick therefore does: every root peer with an entry
in `peersToReap` that is not draining, or draining for a prune, is left draining for the reap,
whatever `knownPeers` held before the tick. A worker that advertised during the round, and so
sits in `knownPeers`, is reaped all the same when `peersToReap` records it from the round
before.

What the reaper is for does hold: a worker that stops advertising is reaped within two reap
periods (`reapPeers_twice_drains_known_peer`). Its entry moves from `knownPeers` to
`peersToReap` at the first tick and is reaped at the second, and a reap drain is left as it is
by every later tick (`reapRoot_reapRoot`).

## Main results

* `Dispatcher.reapSinglePeer_frame`: a reap of one peer leaves the root entry of every other
  peer as it was, and adds no peer to `knownPeers`;
* `Dispatcher.reapPeers_loop_frame`: so do the passes of a tick over the other peers;
* `Dispatcher.get_rootPeers_reapPeers`: what a tick does to every root peer, as `reapRoot`;
* `Dispatcher.reapPeers_drains_stale_peer`: the effect of a tick on each stale peer;
* `Dispatcher.reapPeers_twice_drains_known_peer`: two ticks in a row reap every peer either reap
  table records at the first.
-/

namespace Hyperbahn

namespace Dispatcher

theorem get_rootPeers_modifyPeer (d : Dispatcher) (hp : String) (f : Peer → Peer) (k : String) :
    (d.modifyPeer hp f).rootPeers.get k =
      if k = hp then (d.rootPeers.get hp).map f else d.rootPeers.get k := by
  unfold modifyPeer
  cases hg : d.rootPeers.get hp with
  | none => by_cases hk : k = hp <;> simp [hk, hg]
  | some p => by_cases hk : k = hp <;> simp [hk]

@[simp]
theorem knownPeers_modifyPeer (d : Dispatcher) (hp : String) (f : Peer → Peer) :
    (d.modifyPeer hp f).knownPeers = d.knownPeers := by
  unfold modifyPeer; split <;> rfl

@[simp]
theorem peersToReap_modifyPeer (d : Dispatcher) (hp : String) (f : Peer → Peer) :
    (d.modifyPeer hp f).peersToReap = d.peersToReap := by
  unfold modifyPeer; split <;> rfl

@[simp]
theorem knownPeers_modifyChannel (d : Dispatcher) (s : String) (f : SubChannel → SubChannel) :
    (d.modifyChannel s f).knownPeers = d.knownPeers := by
  unfold modifyChannel; split <;> rfl

@[simp]
theorem peersToReap_modifyChannel (d : Dispatcher) (s : String) (f : SubChannel → SubChannel) :
    (d.modifyChannel s f).peersToReap = d.peersToReap := by
  unfold modifyChannel; split <;> rfl

@[simp]
theorem rootPeers_deletePeerIndex (d : Dispatcher) (s hp : String) :
    (d.deletePeerIndex s hp).rootPeers = d.rootPeers := by
  unfold deletePeerIndex forgetKnown disconnectIfPartial; split_ifs <;> rfl

@[simp]
theorem knownPeers_deletePeerIndex (d : Dispatcher) (s hp : String) :
    (d.deletePeerIndex s hp).knownPeers = deleteIndexEntry d.knownPeers hp s := by
  unfold deletePeerIndex forgetKnown disconnectIfPartial; split_ifs <;> rfl

@[simp]
theorem peersToReap_deletePeerIndex (d : Dispatcher) (s hp : String) :
    (d.deletePeerIndex s hp).peersToReap = d.peersToReap := by
  unfold deletePeerIndex forgetKnown disconnectIfPartial; split_ifs <;> rfl

/-! ## One reap -/

section SinglePeer

/-- What the reaper does to the root entry of the peer it reaps: nothing if it is draining for
another reason than a prune, and otherwise drain it for the reap. -/
def reapRoot (p : Peer) : Peer :=
  if p.draining.any (fun drain => !startsWith drain.reason "peer pruned") then p
  else { p with draining := some reapDrain }

/-- The reaper leaves a reap drain as it is. -/
@[simp]
theorem reapRoot_reapRoot (p : Peer) : reapRoot (reapRoot p) = reapRoot p := by
  unfold reapRoot
  split
  · rfl
  · exact if_pos rfl

/-- A pass of the loop of `reapSinglePeer` touches no root peer and neither reap table but for
deleting from `knownPeers`. -/
theorem reapService_frame {d d' : Dispatcher} {hp s : String} (he : d.reapService hp s = .ok d') :
    d'.rootPeers = d.rootPeers ∧ d'.peersToReap = d.peersToReap ∧
      d'.knownPeers = deleteIndexEntry d.knownPeers hp s := by
  simp only [reapService] at he
  split at he <;> cases he
  simp

/-- The loop of `reapSinglePeer hostPort` touches no root peer, leaves `peersToReap` as it was,
and adds no peer to `knownPeers`. -/
theorem reapLoop_frame {d d' : Dispatcher} {hostPort : String} {serviceNames : JsMap Nat}
    {l : List Nat} {k : String}
    (he : l.foldlM (fun d i => d.reapService hostPort
      (numberKey (serviceNames.get (toString i)))) d = .ok d')
    (hk : d.knownPeers.get k = none) :
    d'.rootPeers = d.rootPeers ∧ d'.peersToReap = d.peersToReap ∧ d'.knownPeers.get k = none :=
  foldlM_keeps (P := fun d₁ => d₁.rootPeers = d.rootPeers ∧ d₁.peersToReap = d.peersToReap ∧
      d₁.knownPeers.get k = none) l
    ⟨rfl, rfl, hk⟩ (fun _ _ _ h hs => by
      obtain ⟨hr, hq, hkn⟩ := reapService_frame hs
      exact ⟨hr.trans h.1, hq.trans h.2.1, hkn ▸ get_deleteIndexEntry_of_eq_none _ _ h.2.2⟩) he

/-- A reap of `hostPort` leaves the root entry of every other peer and `peersToReap` as they
were, and adds no peer to `knownPeers`. -/
theorem reapSinglePeer_frame {d d' : Dispatcher} {hostPort : String} {serviceNames : JsMap Nat}
    (he : d.reapSinglePeer hostPort serviceNames = .ok d') {k : String}
    (hk : d.knownPeers.get k = none) :
    (k ≠ hostPort → d'.rootPeers.get k = d.rootPeers.get k) ∧ d'.peersToReap = d.peersToReap ∧
      d'.knownPeers.get k = none := by
  rcases reapSinglePeer_cases he with rfl | ⟨d₁, hloop, rfl⟩
  · exact ⟨fun _ => rfl, rfl, hk⟩
  · obtain ⟨hr, hq, hkn⟩ := reapLoop_frame hloop (by rwa [knownPeers_modifyPeer])
    refine ⟨fun hne => ?_, by rw [peersToReap_modifyPeer, hq, peersToReap_modifyPeer],
      by rwa [knownPeers_modifyPeer]⟩
    rw [get_rootPeers_modifyPeer, if_neg hne, hr, get_rootPeers_modifyPeer, if_neg hne]

/-- A reap of a peer absent from `knownPeers` applies `reapRoot` to its root entry. -/
theorem get_rootPeers_reapSinglePeer_self {d d' : Dispatcher} {hostPort : String}
    {serviceNames : JsMap Nat} (he : d.reapSinglePeer hostPort serviceNames = .ok d')
    (hk : d.knownPeers.get hostPort = none) :
    d'.rootPeers.get hostPort = (d.rootPeers.get hostPort).map reapRoot := by
  simp only [reapSinglePeer, JsMap.contains, hk, Option.isSome_none, Bool.false_eq_true,
    if_false] at he
  cases hroot : d.rootPeers.get hostPort with
  | none => rw [hroot] at he; cases he; exact hroot
  | some p =>
    rw [hroot] at he
    dsimp only at he
    by_cases hdrain : p.draining.any (fun drain => !startsWith drain.reason "peer pruned")
    · rw [if_pos hdrain] at he
      cases he
      simp only [hroot, Option.map_some', reapRoot, if_pos hdrain]
    · rw [if_neg hdrain] at he
      split at he
      · rename_i d₁ hloop
        cases he
        obtain ⟨hr, -⟩ := reapLoop_frame hloop (k := hostPort) (by rwa [knownPeers_modifyPeer])
        rw [get_rootPeers_modifyPeer, if_pos rfl, hr, get_rootPeers_modifyPeer, if_pos rfl, hroot]
        simp only [Option.map_some', reapRoot, if_neg hdrain]
      · cases he

end SinglePeer

/-! ## A tick -/

section Tick

theorem foldlM_append_eq_ok {α : Type} {f : Dispatcher → α → Except String Dispatcher}
    {l₁ l₂ : List α} {d d' : Dispatcher} (h : (l₁ ++ l₂).foldlM f d = .ok d') :
    ∃ d₁, l₁.foldlM f d = .ok d₁ ∧ l₂.foldlM f d₁ = .ok d' := by
  rw [List.foldlM_append] at h
  cases h₁ : l₁.foldlM f d with
  | error e => rw [h₁] at h; cases h
  | ok d₁ => rw [h₁] at h; exact ⟨d₁, rfl, h⟩

theorem foldlM_cons_eq_ok {α : Type} {f : Dispatcher → α → Except String Dispatcher} {a : α}
    {l : List α} {d d' : Dispatcher} (h : (a :: l).foldlM f d = .ok d') :
    ∃ d₁, f d a = .ok d₁ ∧ l.foldlM f d₁ = .ok d' := by
  rw [List.foldlM_cons] at h
  cases h₁ : f d a with
  | error e => rw [h₁] at h; cases h
  | ok d₁ => rw [h₁] at h; exact ⟨d₁, rfl, h⟩

variable {collection : JsMap (JsMap Nat)}

/-- One pass of the loop of `reapPeers` leaves `peersToReap` as it was, adds no peer to
`knownPeers`, and, over a key other than `hp`, leaves the root entry of `hp` as it was. -/
theorem reapPeers_pass_frame {d d' : Dispatcher} {hostPort hp : String}
    (hk : d.knownPeers.get hp = none)
    (he : (match collection.get hostPort with
      | some serviceNames => d.reapSinglePeer hostPort serviceNames
      | none => .ok d) = .ok d') :
    (hp ≠ hostPort → d'.rootPeers.get hp = d.rootPeers.get hp) ∧
      d'.peersToReap = d.peersToReap ∧ d'.knownPeers.get hp = none := by
  split at he
  · exact reapSinglePeer_frame he hk
  · cases he; exact ⟨fun _ => rfl, rfl, hk⟩

/-- The passes of the loop of `reapPeers` over keys other than `hp` leave the root entry of
`hp` and `peersToReap` as they were, and `hp` out of `knownPeers`. -/
theorem reapPeers_loop_frame {hp : String} {l : List String} (hl : hp ∉ l) {d d' : Dispatcher}
    (hk : d.knownPeers.get hp = none)
    (he : l.foldlM (fun d hostPort => match collection.get hostPort with
      | some serviceNames => d.reapSinglePeer hostPort serviceNames
      | none => .ok d) d = .ok d') :
    d'.rootPeers.get hp = d.rootPeers.get hp ∧ d'.peersToReap = d.peersToReap ∧
      d'.knownPeers.get hp = none := by
  induction l generalizing d with
  | nil => cases he; exact ⟨rfl, rfl, hk⟩
  | cons a l ih =>
    obtain ⟨d₁, h₁, h₂⟩ := foldlM_cons_eq_ok he
    rw [List.mem_cons, not_or] at hl
    obtain ⟨hr₁, hq₁, hk₁⟩ := reapPeers_pass_frame hk h₁
    obtain ⟨hr, hq, hk'⟩ := ih hl.2 hk₁ h₂
    exact ⟨hr.trans (hr₁ hl.1), hq.trans hq₁, hk'⟩

end Tick

/-- A tick of the peer reaper that returns applies `reapRoot` to the root entry of every peer
that `peersToReap` records, whatever `knownPeers` held, and leaves every other root entry as
it was; `peersToReap` is then what `knownPeers` was. -/
theorem get_rootPeers_reapPeers {d d' : Dispatcher} (he : d.reapPeers = .ok d') (hp : String) :
    d'.rootPeers.get hp = (if d.peersToReap.contains hp then (d.rootPeers.get hp).map reapRoot
      else d.rootPeers.get hp) ∧ d'.peersToReap = d.knownPeers := by
  unfold reapPeers at he
  dsimp only at he
  by_cases hmem : d.peersToReap.contains hp
  · rw [if_pos hmem]
    obtain ⟨serviceNames, hsn⟩ := Option.isSome_iff_exists.mp hmem
    obtain ⟨l₁, l₂, hl⟩ := List.append_of_mem (JsMap.mem_keys.mpr hmem)
    have hnd := JsMap.keys_nodup d.peersToReap
    rw [hl, List.nodup_append, List.nodup_cons] at hnd
    rw [hl] at he
    obtain ⟨d₁, hd₁, he⟩ := foldlM_append_eq_ok he
    obtain ⟨d₂, hd₂, hd'⟩ := foldlM_cons_eq_ok he
    -- before `hp`'s turn the table `reapSinglePeer` reads holds nothing for `hp`
    obtain ⟨hr₁, hq₁, hk₁⟩ := reapPeers_loop_frame
      (fun h => hnd.2.2 h (List.mem_cons_self hp l₂)) (JsMap.get_empty hp) hd₁
    rw [hsn] at hd₂
    obtain ⟨-, hq₂, hk₂⟩ := reapSinglePeer_frame hd₂ hk₁
    obtain ⟨hr', hq', -⟩ := reapPeers_loop_frame hnd.2.1.1 hk₂ hd'
    exact ⟨by rw [hr', get_rootPeers_reapSinglePeer_self hd₂ hk₁, hr₁], hq'.trans (hq₂.trans hq₁)⟩
  · rw [if_neg hmem]
    exact (reapPeers_loop_frame (mt JsMap.mem_keys.mp hmem) (JsMap.get_empty hp) he).imp_right
      And.left

/-- A tick of the peer reaper that returns leaves draining for the reap every root peer that
`peersToReap` records and that is not draining, or draining for a prune, whatever
`knownPeers` held before the tick. -/
theorem reapPeers_drains_stale_peer {d d' : Dispatcher} (he : d.reapPeers = .ok d') {hp : String}
    (hmem : d.peersToReap.contains hp) {p : Peer} (hroot : d.rootPeers.get hp = some p)
    (hdrain : p.draining.any (fun drain => !startsWith drain.reason "peer pruned") = false) :
    d'.peerDraining hp = some reapDrain := by
  rw [peerDraining, (get_rootPeers_reapPeers he hp).1, if_pos hmem, hroot]
  simp [reapRoot, hdrain]

/-- A worker advertised again during the round, and so in `knownPeers`, is reaped all the same. -/
theorem reapPeers_drains_stale_peer_readvertised :
    ∃ d', ({ refreshServicePeer (Config.sample "r") (init (Ring.single "r")) "s" "w" 1 with
        peersToReap := (refreshServicePeer (Config.sample "r") (init (Ring.single "r")) "s" "w"
          1).knownPeers } : Dispatcher).knownPeers.contains "w" = true ∧
      ({ refreshServicePeer (Config.sample "r") (init (Ring.single "r")) "s" "w" 1 with
        peersToReap := (refreshServicePeer (Config.sample "r") (init (Ring.single "r")) "s" "w"
          1).knownPeers } : Dispatcher).reapPeers = .ok d' ∧
      d'.peerDraining "w" = some reapDrain := by
  obtain ⟨d', he⟩ : ∃ d', ({ refreshServicePeer (Config.sample "r") (init (Ring.single "r")) "s"
      "w" 1 with peersToReap := (refreshServicePeer (Config.sample "r") (init (Ring.single "r"))
        "s" "w" 1).knownPeers } : Dispatcher).reapPeers = .ok d' := ⟨_, rfl⟩
  exact ⟨d', by decide, he, reapPeers_drains_stale_peer he (by decide) rfl rfl⟩

/-- Two ticks of the peer reaper in a row that return leave draining for the reap every root
peer recorded in either reap table at the first, unless it is draining for another reason
than a prune: a worker that stops advertising is reaped within two reap periods. -/
theorem reapPeers_twice_drains_known_peer {d d₁ d₂ : Dispatcher} (he₁ : d.reapPeers = .ok d₁)
    (he₂ : d₁.reapPeers = .ok d₂) {hp : String}
    (hknown : d.knownPeers.contains hp ∨ d.peersToReap.contains hp) {p : Peer}
    (hroot : d.rootPeers.get hp = some p)
    (hdrain : p.draining.any (fun drain => !startsWith drain.reason "peer pruned") = false) :
    d₂.peerDraining hp = some reapDrain := by
  obtain ⟨h₁, hq₁⟩ := get_rootPeers_reapPeers he₁ hp
  obtain ⟨h₂, -⟩ := get_rootPeers_reapPeers he₂ hp
  have hreap : (reapRoot p).draining = some reapDrain := by simp [reapRoot, hdrain]
  rw [peerDraining, h₂, h₁, hq₁, hroot]
  by_cases hr : d.peersToReap.contains hp
  · -- reaped at the first tick, and left so by the second
    rw [if_pos hr, Option.map_some', Option.map_some', reapRoot_reapRoot, ite_self]
    exact hreap
  · rw [if_neg hr, if_pos (hknown.resolve_right hr), Option.map_some']
    exact hreap

/-- A worker advertised once, at `t = 1`, is reaped by the second tick after. -/
theorem reapPeers_twice_drains_known_peer_advertised :
    ∃ d₁ d₂, (refreshServicePeer (Config.sample "r") (init (Ring.single "r")) "s" "w"
        1).reapPeers = .ok d₁ ∧ d₁.reapPeers = .ok d₂ ∧ d₂.peerDraining "w" = some reapDrain :=
  ⟨_, _, rfl, rfl, reapPeers_twice_drains_known_peer
    (d := refreshServicePeer (Config.sample "r") (init (Ring.single "r")) "s" "w" 1) rfl rfl
    (.inl (by decide)) rfl rfl⟩

end Dispatcher

end Hyperbahn
