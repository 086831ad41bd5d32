import AddressPool.Network

/-! The addresses a network may hand out: from a first one up to, and without, a bound.
The bound after the last address of a family is that family's zero, so a zero bound
means the range runs to the top. -/
namespace AddressPool

structure Range where
  start : Address
  stop : Address
  deriving DecidableEq, Repr

namespace Range

def contains (r : Range) (a : Address) : Bool :=
  if a.family = r.start.family then
    if r.start < r.stop then decide (r.start ≤ a) && decide (a < r.stop)
    else if r.stop.isZero then decide (r.start ≤ a)
    else false
  else false

def isEmpty (r : Range) : Bool := !r.contains r.start

/-- One step of a walk: after the bound comes the start again. The bound itself may be
visited; it is no member. -/
def after (r : Range) (a : Address) : Address := if a = r.stop then r.start else a.next

end Range

def Network.range (n : Network) : Except Fault Range := do
  let (lowest, highest) ← n.subnet.bounds
  checkBound n.subnet n.first
  let start := n.first.getD lowest.next
  match n.last with
  | none => return ⟨start, highest⟩
  | some last =>
      n.subnet.checkInside last
      if last < start then .error (.range (.reversed last start))
      else return ⟨start, last.next⟩

end AddressPool
