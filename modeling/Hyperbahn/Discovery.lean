import Hyperbahn.Dispatcher.State
import Hyperbahn.JsBuiltins

/-!
# Discovery

`discoverAffine` answers a query for a service with the peers of its service channel, each
host-port `a.b.c.d:p` converted by `convertHosts` into a port and an IPv4 address. The address is
computed with JavaScript's signed shifts, `d + (c << 8) + (b << 16) + (a << 24)`, so for a first
octet of `128` or more `a << 24` is negative and so is the address.

For every list of host-ports, `convertHosts_toString` shows that the conversion keeps one entry
per host in order, with the port, and an address in `[-2^31, 2^31)` congruent to
`a * 2^24 + b * 2^16 + c * 2^8 + d` modulo `2^32`, whose four bytes read with unsigned shifts
are `a`, `b`, `c`, `d`.
-/

namespace Hyperbahn

/-- What `convertHosts` makes of one host-port: `port` and `ip.ipv4`, each a number or `NaN`
(`none`). -/
structure HostAddress where
  /-- `port`. -/
  port : Option Int
  /-- `ip.ipv4`. -/
  ipv4 : Option Int
deriving DecidableEq, Repr

/-- One pass of the loop of `convertHosts`: the port after the `:`, and the four octets before
it, split at `.`. -/
def convertHost (hostPort : String) : HostAddress :=
  let strs := Js.split hostPort ":"
  let port := Js.parseInt ((strs.get? 1).getD "undefined")
  let strs := Js.split ((strs.get? 0).getD "undefined") "."
  let octet (i : Nat) := Js.parseInt ((strs.get? i).getD "undefined")
  ⟨port, (octet 3).map fun d =>
    d + Js.shiftLeft (octet 2) 8 + Js.shiftLeft (octet 1) 16 + Js.shiftLeft (octet 0) 24⟩

/-- `convertHosts(hosts)`: the loop pushes one entry per host, in order. -/
def convertHosts (hosts : List String) : List HostAddress := hosts.map convertHost

/-- The answer of `_getDiscoverHosts` and `discoverAffine`. -/
inductive DiscoverResponse
  /-- `invalidServiceName`, for an empty service name. -/
  | invalidServiceName (serviceName : String)
  /-- `noPeersAvailable`. -/
  | noPeersAvailable (serviceName : String)
  /-- `ok`, with the converted peers. -/
  | peers (hosts : List HostAddress)
deriving DecidableEq, Repr

namespace Dispatcher

/-- `_getDiscoverHosts(serviceName)`: the converted peers of the service channel, if it has
any. -/
def _getDiscoverHosts (d : Dispatcher) (serviceName : String) : DiscoverResponse :=
  let hosts := match d.subChannels.get serviceName with
    | some svcchan => convertHosts svcchan.peers
    | none => []
  if hosts.length = 0 then .noPeersAvailable serviceName else .peers hosts

/-- `discoverAffine(handler, req, head, body)`. -/
def discoverAffine (d : Dispatcher) (serviceName : String) : DiscoverResponse :=
  if serviceName.length = 0 then .invalidServiceName serviceName
  else d._getDiscoverHosts serviceName

end Dispatcher

/-! ## Host-ports as numbers -/

/-- A host-port `a.b.c.d:p` given by its four octets and its port. -/
structure HostPort where
  /-- The first octet. -/
  a : Fin 256
  /-- The second octet. -/
  b : Fin 256
  /-- The third octet. -/
  c : Fin 256
  /-- The fourth octet. -/
  d : Fin 256
  /-- The port. -/
  port : Fin 65536
deriving DecidableEq, Repr

namespace HostPort

/-- The text `a.b.c.d:p`, each number in decimal. -/
def toString (h : HostPort) : String :=
  Nat.repr h.a ++ "." ++ Nat.repr h.b ++ "." ++ Nat.repr h.c ++ "." ++ Nat.repr h.d ++ ":" ++
    Nat.repr h.port

/-- The address as an unsigned big-endian 32-bit number. -/
def address (h : HostPort) : Nat := h.a * 2 ^ 24 + h.b * 2 ^ 16 + h.c * 2 ^ 8 + h.d

end HostPort

/-- The four bytes `(x >>> 24) & 0xff`, `(x >>> 16) & 0xff`, `(x >>> 8) & 0xff`, `x & 0xff`
that a client reads out of `ip.ipv4`. -/
def ipv4Bytes (x : Int) : List Nat :=
  [24, 16, 8, 0].map fun n => Js.lowByte (Js.unsignedShiftRight x n)

theorem digitChar_ne_separator : ∀ k < 10, Nat.digitChar k ≠ '.' ∧ Nat.digitChar k ≠ ':' := by
  decide

/-- The decimal numeral of a number has neither `.` nor `:`. -/
theorem separator_not_mem_repr (n : Nat) : '.' ∉ (Nat.repr n).data ∧ ':' ∉ (Nat.repr n).data := by
  have hdig := (Js.toDigitsCore_spec (n + 1) n (Nat.lt_succ_self n)).1
  constructor <;> intro hmem
  · obtain ⟨k, hk, he⟩ := hdig _ hmem
    exact (digitChar_ne_separator k hk).1 he.symm
  · obtain ⟨k, hk, he⟩ := hdig _ hmem
    exact (digitChar_ne_separator k hk).2 he.symm

/-- The address `convertHost` computes from four octets. -/
theorem ipv4_octets {a b c : Nat} (ha : a < 256) (hb : b < 256) (hc : c < 256) (d : Nat) :
    (d : Int) + Js.shiftLeft (some c) 8 + Js.shiftLeft (some b) 16 + Js.shiftLeft (some a) 24 =
      a * 2 ^ 24 + b * 2 ^ 16 + c * 2 ^ 8 + d - if 128 ≤ a then 2 ^ 32 else 0 := by
  have hbyte : ∀ {x : Nat}, x < 256 → Js.toInt32 x = x := fun hx => Js.toInt32_of_lt (by omega) (by omega)
  simp only [Js.shiftLeft, Option.getD_some, Nat.reduceMod, hbyte ha, hbyte hb, hbyte hc]
  rw [Js.toInt32_of_lt (x := c * 2 ^ 8) (by omega) (by omega),
    Js.toInt32_of_lt (x := b * 2 ^ 16) (by omega) (by omega)]
  split
  · rw [Js.toInt32_of_ge (by omega) (by omega)]; omega
  · rw [Js.toInt32_of_lt (by omega) (by omega)]; omega

theorem convertHost_toString (h : HostPort) :
    convertHost h.toString = ⟨some h.port, some (h.address - if 128 ≤ (h.a : Nat) then 2 ^ 32 else 0)⟩ := by
  obtain ⟨ha, -⟩ := separator_not_mem_repr h.a
  obtain ⟨hb, -⟩ := separator_not_mem_repr h.b
  obtain ⟨hc, -⟩ := separator_not_mem_repr h.c
  obtain ⟨hd, hd'⟩ := separator_not_mem_repr h.d
  obtain ⟨-, hp⟩ := separator_not_mem_repr h.port
  have hcolon : ':' ∉ (Nat.repr h.a ++ "." ++ Nat.repr h.b ++ "." ++ Nat.repr h.c ++ "." ++
      Nat.repr h.d).data := by
    simp only [String.data_append, List.mem_append, not_or]
    exact ⟨⟨⟨⟨⟨⟨(separator_not_mem_repr h.a).2, by decide⟩, (separator_not_mem_repr h.b).2⟩,
      by decide⟩, (separator_not_mem_repr h.c).2⟩, by decide⟩, hd'⟩
  have hport : Js.split h.toString ":" = [Nat.repr h.a ++ "." ++ Nat.repr h.b ++ "." ++
      Nat.repr h.c ++ "." ++ Nat.repr h.d, Nat.repr h.port] := by
    rw [HostPort.toString, String.append_assoc _ ":", Js.split_append_of_not_mem rfl hcolon,
      Js.split_of_not_mem rfl hp]
  have hoctets : Js.split (Nat.repr h.a ++ "." ++ Nat.repr h.b ++ "." ++ Nat.repr h.c ++ "." ++
      Nat.repr h.d) "." = [Nat.repr h.a, Nat.repr h.b, Nat.repr h.c, Nat.repr h.d] := by
    simp only [String.append_assoc]
    rw [Js.split_append_of_not_mem rfl ha, Js.split_append_of_not_mem rfl hb,
      Js.split_append_of_not_mem rfl hc, Js.split_of_not_mem rfl hd]
  simp only [convertHost, hport, hoctets, List.get?_cons_zero, List.get?_cons_succ,
    Option.getD_some, Option.map_some', HostAddress.mk.injEq]
  refine ⟨Js.parseInt_repr _, ?_⟩
  rw [Js.parseInt_repr, Js.parseInt_repr, Js.parseInt_repr, Js.parseInt_repr,
    Option.map_some', ipv4_octets h.a.isLt h.b.isLt h.c.isLt, HostPort.address]
  push_cast
  rfl

/-- The address of a host-port read as a signed 32-bit number lies in `[-2^31, 2^31)` and is
congruent to the unsigned one. -/
theorem signed_address_spec (h : HostPort) :
    -2 ^ 31 ≤ (h.address : Int) - (if 128 ≤ (h.a : Nat) then 2 ^ 32 else 0) ∧
      (h.address : Int) - (if 128 ≤ (h.a : Nat) then 2 ^ 32 else 0) < 2 ^ 31 ∧
      ((h.address : Int) - if 128 ≤ (h.a : Nat) then 2 ^ 32 else 0) ≡ h.address [ZMOD 2 ^ 32] := by
  have ha := h.a.isLt
  have hb := h.b.isLt
  have hc := h.c.isLt
  have hd := h.d.isLt
  simp only [HostPort.address, Int.ModEq]
  split <;> omega

/-- The bytes read out of a number congruent to the address are the four octets. -/
theorem ipv4Bytes_of_modEq {v : Int} {h : HostPort} (hv : v ≡ h.address [ZMOD 2 ^ 32]) :
    ipv4Bytes v = [(h.a : Nat), (h.b : Nat), (h.c : Nat), (h.d : Nat)] := by
  have ha := h.a.isLt
  have hb := h.b.isLt
  have hc := h.c.isLt
  have hd := h.d.isLt
  have haddr : h.address = h.a * 2 ^ 24 + h.b * 2 ^ 16 + h.c * 2 ^ 8 + h.d := rfl
  have hv' : (v % 2 ^ 32).toNat = h.address := by
    have hv : v % 2 ^ 32 = (h.address : Int) % 2 ^ 32 := hv
    omega
  simp only [ipv4Bytes, List.map_cons, List.map_nil, Js.lowByte, Js.unsignedShiftRight, hv',
    haddr, Nat.reduceMod, Nat.reducePow, List.cons.injEq, and_true]
  clear hv hv' haddr
  refine ⟨?_, ?_, ?_, ?_⟩ <;> omega

/-- For every list of host-ports `a.b.c.d:p`, `convertHosts` gives one entry per host, in order,
with the port `p`, and an address in `[-2^31, 2^31)` congruent to `a * 2^24 + b * 2^16 + c * 2^8 + d`
modulo `2^32`, whose bytes read with unsigned shifts are `a`, `b`, `c`, `d`. -/
theorem convertHosts_toString (hosts : List HostPort) :
    List.Forall₂ (fun h e => e.port = some ((h.port : Nat) : Int) ∧ ∃ v, e.ipv4 = some v ∧
        -2 ^ 31 ≤ v ∧ v < 2 ^ 31 ∧ v ≡ h.address [ZMOD 2 ^ 32] ∧
        ipv4Bytes v = [(h.a : Nat), (h.b : Nat), (h.c : Nat), (h.d : Nat)])
      hosts (convertHosts (hosts.map HostPort.toString)) := by
  rw [convertHosts, List.map_map, List.forall₂_map_right_iff, List.forall₂_same]
  intro h _
  obtain ⟨hlo, hhi, hmod⟩ := signed_address_spec h
  rw [Function.comp_apply, convertHost_toString]
  exact ⟨rfl, _, rfl, hlo, hhi, hmod, ipv4Bytes_of_modEq hmod⟩

end Hyperbahn
