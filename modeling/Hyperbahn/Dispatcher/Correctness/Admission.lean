import Hyperbahn.Dispatcher.Admission

/-!
# The lazy and the eager request paths

`handleLazily` and `handleRequest` take the same decisions in the same order once a request has
a service name and a caller name: the block check, the rate limiter on the effective service
`rd || serviceName`, and the hand-off to the channel of the effective service. They differ in
two places. The lazy path asks the blocking tables about the declared service name, the eager
path about the effective one; and the lazy path hands the frame on only to a handler that has a
`handleLazily`, returning `false` otherwise (`handleLazily_eq_lazyHandOff`). So a block on a
routing delegate stops the eager path and not the lazy one
(`handleLazily_dispatches_blocked_delegate`).
-/

namespace Hyperbahn

namespace Dispatcher

variable (cfg : Config)

/-- With a service name, a caller name and a connection, the lazy path is the eager path with
the block check asked about the declared service, followed by the lazy hand-off. -/
theorem handleLazily_eq_lazyHandOff (d : Dispatcher) {serviceName cn : String}
    (hs : serviceName ≠ "") (hcn : cn ≠ "") (rd : Option String) (now : Nat)
    (hblock : d.isBlocked (some cn) (some serviceName) =
      d.isBlocked (some cn) (some ((truthyString rd).getD serviceName))) :
    handleLazily cfg d ⟨some serviceName, some ⟨some cn, rd⟩⟩ now =
      lazyHandOff (handleRequest cfg d ⟨serviceName, some ⟨some cn, rd⟩, true⟩ now) := by
  have hcn' : truthyString (some cn) = some cn := if_neg hcn
  simp only [handleLazily, handleRequest, if_neg hs, hcn', Option.some_bind, hblock]
  split <;> rfl

/-- A request to the `hyperbahn` sub channel, whose handler has no `handleLazily`, is declined
by the lazy path and dispatched by the eager one. -/
example :
    (handleLazily (Config.sample "r") (init (Ring.single "r"))
        ⟨some "hyperbahn", some ⟨some "c", none⟩⟩ 1).1 = .declined "hyperbahn" ∧
    (handleRequest (Config.sample "r") (init (Ring.single "r"))
        ⟨"hyperbahn", some ⟨some "c", none⟩, true⟩ 1).1 = .dispatched "hyperbahn" := by
  decide

/-- After `block(c, b)`, a request for `a` from `c` delegated to `b` is handed to the channel of
`b` by the lazy path and silently dropped by the eager one. -/
theorem handleLazily_dispatches_blocked_delegate :
    ∃ d, (init (Ring.single "r")).block (some "c") (some "b") 1 = .ok d ∧
      (handleLazily (Config.sample "r") d ⟨some "a", some ⟨some "c", some "b"⟩⟩ 2).1 =
        .dispatched "b" ∧
      (handleRequest (Config.sample "r") d ⟨"a", some ⟨some "c", some "b"⟩, true⟩ 2).1 = .blocked :=
  ⟨_, rfl, by decide, by decide⟩

end Dispatcher

end Hyperbahn
