import AddressPool.Network.Range
import AddressPool.Store

/-! Handing out addresses one at a time. The search begins after the address reserved
last and goes round the range, so that a freed address waits for its turn. The lock is
held from the reading of the marker to the reservation. -/
namespace AddressPool

structure Allocator where
  network : Network
  range : Range
  deriving DecidableEq, Repr

namespace Allocator

def ofNetwork (network : Network) : Except Fault Allocator := do
  let range ← network.range
  return ⟨network, range⟩

def gateway (r : Allocator) : Address := r.network.gatewayAddress

variable {σ : Type} [Store σ]

/-- Tries the addresses from `a` on until `stop`. A walk of more steps than the family
has addresses repeats itself and would not end. -/
def walk (r : Allocator) (owner : String) (stop : Address) :
    (steps : Nat) → Address → σ → Except Fault Address × σ
  | 0, _, s => (.error (.endless r.network.name), s)
  | steps + 1, a, s =>
      if a = stop then (.error (.exhausted r.network.name), s)
      else if a ≠ r.gateway ∧ r.range.contains a then
        match Store.reserve owner a s with
        | (.error fault, s) => (.error fault, s)
        | (.ok true, s) => (.ok a, s)
        | (.ok false, s) => walk r owner stop steps (r.range.after a) s
      else walk r owner stop steps (r.range.after a) s

def walkBounds (r : Allocator) (marker : Except Fault (Option Address)) : Address × Address :=
  match marker with
  | .ok (some m) =>
      if r.range.contains m then (r.range.after m, m) else (r.range.start, r.range.stop)
  | _ => (r.range.start, r.range.stop)

def search (r : Allocator) (owner : String) (s : σ) : Except Fault Address × σ :=
  if r.range.isEmpty then (.error (.exhausted r.network.name), s)
  else
    let (marker, s) := Store.lastReserved s
    let (start, stop) := r.walkBounds marker
    r.walk owner stop (r.range.start.family.space + 1) start s

def take (r : Allocator) (owner : String) (requested : Address) (s : σ) :
    Except Fault Address × σ :=
  if requested = r.gateway then (.error (.requestedGateway r.gateway), s)
  else if r.network.subnet.contains requested then
    match Store.reserve owner requested s with
    | (.error fault, s) => (.error fault, s)
    | (.ok true, s) => (.ok requested, s)
    | (.ok false, s) => (.error (.unavailable requested r.network.name), s)
  else (.error (.requestedOutside requested r.network.subnet), s)

def pick (r : Allocator) (owner : String) (s : σ) : Except Fault Address × σ :=
  match r.network.requested with
  | some requested => r.take owner requested s
  | none => r.search owner s

def lease (r : Allocator) (a : Address) : Lease :=
  ⟨a, r.network.subnet.mask, r.gateway, r.network.routes⟩

def allocate (r : Allocator) (owner : String) (s : σ) : Except Fault Lease × σ :=
  let (result, s) := Store.whileLocked (r.pick owner) s
  (result.map r.lease, s)

def release (_ : Allocator) (owner : String) (s : σ) : Except Fault Unit × σ :=
  Store.whileLocked (Store.releaseOwner owner) s

end Allocator
end AddressPool
