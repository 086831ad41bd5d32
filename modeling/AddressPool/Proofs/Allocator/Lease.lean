import AddressPool.Proofs.Allocator.Request
import AddressPool.Proofs.Network.Bounds

/-! Which addresses an allocator leases, over any store whatsoever. Never the gateway, and
never one outside its subnet, unless the subnet is a single address at an end of its family
and the range has wrapped. -/
namespace AddressPool

namespace Range

theorem nonempty {r : Range} {a : Address} (inside : r.contains a = true) :
    r.isEmpty = false := by
  have least : r.start ≤ r.start := Nat.le_refl r.start.rank
  rw [isEmpty, Bool.not_eq_false']
  unfold contains at inside ⊢
  rw [if_pos rfl]
  split at inside
  · split at inside
    · next below => simp [below, least]
    · split at inside
      · next below top => simp [below, top, least]
      · contradiction
  · contradiction

end Range

namespace Allocator

section Granting

variable {σ : Type} [Store σ] {r : Allocator} {owner : String} {s t : σ} {a : Address}

def Eligible (r : Allocator) (a : Address) : Prop :=
  a ≠ r.gateway ∧ (r.network.subnet.contains a = true ∨
    r.network.requested = none ∧ r.range.contains a = true)

theorem walkFound {stop : Address} {steps : Nat} {b : Address}
    (found : r.walk owner stop steps b s = (.ok a, t)) :
    a ≠ r.gateway ∧ r.range.contains a = true := by
  induction steps generalizing b s with
  | zero => simp [walk] at found
  | succ steps ih =>
    simp only [walk] at found
    split at found
    · simp at found
    · split at found
      · next eligible =>
        split at found
        · simp at found
        · simp only [Prod.mk.injEq, Except.ok.injEq] at found
          rw [← found.1]
          exact eligible
        · exact ih found
      · exact ih found

theorem searchFound (found : r.search owner s = (.ok a, t)) :
    a ≠ r.gateway ∧ r.range.contains a = true := by
  simp only [search] at found
  split at found
  · simp at found
  · exact walkFound found

theorem takeFound {requested : Address} (found : r.take owner requested s = (.ok a, t)) :
    a ≠ r.gateway ∧ r.network.subnet.contains a = true := by
  simp only [take] at found
  split at found
  · simp at found
  next apart =>
  split at found
  · next member =>
    split at found
    · simp at found
    · simp only [Prod.mk.injEq, Except.ok.injEq] at found
      rw [← found.1]
      exact ⟨apart, member⟩
    · simp at found
  · simp at found

theorem pickFound (found : r.pick owner s = (.ok a, t)) : r.Eligible a := by
  simp only [pick] at found
  split at found
  · obtain ⟨apart, member⟩ := takeFound found
    exact ⟨apart, .inl member⟩
  · next free =>
    obtain ⟨apart, member⟩ := searchFound found
    exact ⟨apart, .inr ⟨free, member⟩⟩

def Names (r : Allocator) (a : Address) : Prop :=
  r.network.requested = some a ∨ r.network.requested = none ∧ r.range.contains a = true

theorem pickNamed (found : r.pick owner s = (.ok a, t)) : r.Names a := by
  simp only [pick] at found
  split at found
  · next requested asked =>
    left
    simp only [take] at found
    split at found
    · simp at found
    split at found
    · split at found
      · simp at found
      · cases found
        exact asked
      · simp at found
    · simp at found
  · next free => exact .inr ⟨free, (searchFound found).2⟩

theorem allocatePicked {lease : Lease} (found : r.allocate owner s = (.ok lease, t)) :
    ∃ u v : σ, r.pick owner u = (.ok lease.address, v) ∧ lease = r.lease lease.address := by
  simp only [allocate, Store.whileLocked, Prod.mk.injEq] at found
  obtain ⟨found, _⟩ := found
  split at found
  · simp [Except.map] at found
  · next u _ =>
    split at found
    · simp [Except.map] at found
    · next a v picked =>
      split at found
      · simp [Except.map] at found
      · cases found
        exact ⟨u, v, picked, rfl⟩

theorem allocateFound {lease : Lease} (found : r.allocate owner s = (.ok lease, t)) :
    lease.gateway = r.gateway ∧ r.Eligible lease.address := by
  obtain ⟨u, v, picked, same⟩ := allocatePicked found
  exact ⟨by rw [same]; rfl, pickFound picked⟩

end Granting

theorem allocateAfter {r : Allocator} {m : Address} (free : r.network.requested = none)
    (here : r.range.contains m = true) (bound : m ≠ r.range.stop)
    (there : r.range.contains m.next = true) (moved : m.next ≠ m) (apart : m.next ≠ r.gateway)
    (owner : String) :
    (r.allocate owner (Memory.mk false ⟨false, Table.empty.setMarker (some m)⟩)).1 =
      .ok (r.lease m.next) := by
  let table := Table.empty.setMarker (some m)
  have unowned : table.owner? m.next = none := by simp [table]
  have after : r.range.after m = m.next := if_neg bound
  have locked : Store.lock (Memory.mk false ⟨false, table⟩) = (.ok (), ⟨true, ⟨true, table⟩⟩) := rfl
  have marker : Store.lastReserved (Memory.mk true ⟨true, table⟩) =
      (.ok (some m), ⟨true, ⟨true, table⟩⟩) := rfl
  have reserved : Store.reserve owner m.next (Memory.mk true ⟨true, table⟩) =
      (.ok true, ⟨true, ⟨true, table.put m.next owner⟩⟩) := by
    simp [Store.reserve, Memory.reserve, Table.tryReserveFree unowned, Memory.withTable]
  have found : r.pick owner (Memory.mk true ⟨true, table⟩) =
      (.ok m.next, ⟨true, ⟨true, table.put m.next owner⟩⟩) := by
    simp only [pick, free, search, Range.nonempty here, marker, walkBounds, here, if_true, after,
      walk, if_neg moved, apart, there, ne_eq, not_false_eq_true, and_self, reserved,
      Bool.false_eq_true, if_false]
  simp only [allocate, Store.whileLocked]
  rw [locked]
  simp only [found]
  rfl

variable {n : Network} {r : Allocator} {x : Address} {length : Nat}

theorem networkOf (accepted : Allocator.ofNetwork n = .ok r) :
    r.network = n ∧ n.range = .ok r.range := by
  simp only [ofNetwork, bind, Except.bind] at accepted
  split at accepted
  · contradiction
  · next range found =>
    cases accepted
    exact ⟨rfl, found⟩

theorem smallValue (family : Family) {k : Nat} (small : k ≤ 3) :
    (Address.wrap family k).value = k := by
  apply Nat.mod_eq_of_lt
  cases family <;> exact Nat.lt_of_le_of_lt small (by decide)

theorem leaseBeyond (spans : Network.Spans r.network r.range x length)
    (free : r.network.requested = none) (wraps : r.network.Wraps length) {k : Nat} (low : 1 ≤ k)
    (high : k ≤ 2) (apart : Address.wrap x.family (k + 1) ≠ r.gateway) (owner : String) :
    ∃ (s t : Memory) (lease : Lease), r.allocate owner s = (.ok lease, t) ∧
      r.network.subnet.contains lease.address = false := by
  let m := Address.wrap x.family k
  have value : m.value = k := smallValue x.family (by omega)
  have next : m.next = Address.wrap x.family (k + 1) := by rw [Address.next, value]; rfl
  have after : m.next.value = k + 1 := by
    rw [next]
    exact smallValue x.family (by omega)
  obtain ⟨here, bound, _⟩ := @Network.Spans.beyond _ _ _ _ spans wraps m rfl (by omega) (by omega)
  obtain ⟨there, _, outside⟩ :=
    @Network.Spans.beyond _ _ _ _ spans wraps m.next rfl (by omega) (by omega)
  have moved : m.next ≠ m := by
    intro same
    rw [same] at after
    omega
  have leased := allocateAfter free here (fun same => bound (same ▸ rfl)) there moved
    (next ▸ apart) owner
  exact ⟨_, _, _, Prod.ext leased rfl, outside (by omega)⟩

/-- An allocator on a subnet given by its length never leases the gateway, and leases
addresses outside the subnet exactly if no address is insisted on and the range wraps. -/
theorem leasesInside (cidr : Subnet.ofLength x length = .ok n.subnet)
    (accepted : Allocator.ofNetwork n = .ok r) :
    (∀ {σ : Type} [Store σ] (owner : String) (s t : σ) (lease : Lease),
      r.allocate owner s = (.ok lease, t) → lease.address ≠ lease.gateway) ∧
    ((∀ {σ : Type} [Store σ] (owner : String) (s t : σ) (lease : Lease),
      r.allocate owner s = (.ok lease, t) → n.subnet.contains lease.address = true) ↔
      ¬ (n.requested = none ∧ n.Wraps length)) := by
  have subnet : length ≤ 8 * x.family.width ∧ n.subnet = Subnet.around x length := by
    unfold Subnet.ofLength at cidr
    split at cidr
    · contradiction
    · next short => exact ⟨Nat.not_lt.mp short, (Except.ok.inj cidr).symm⟩
  obtain ⟨rfl, range⟩ := networkOf accepted
  have spans := Network.rangeSpans subnet.2 range
  refine ⟨?_, ?_, ?_⟩
  · intro σ _ owner s t lease leased
    obtain ⟨gateway, apart, _⟩ := allocateFound leased
    rw [gateway]
    exact apart
  · rintro always ⟨free, wraps⟩
    -- The gateway can be only one of two such addresses.
    have eligible : ∃ k, 1 ≤ k ∧ k ≤ 2 ∧ Address.wrap x.family (k + 1) ≠ r.gateway := by
      by_cases two : Address.wrap x.family 2 = r.gateway
      · refine ⟨2, by omega, by omega, ?_⟩
        rw [← two]
        intro same
        have equal := congrArg Address.value same
        rw [smallValue x.family (by omega), smallValue x.family (by omega)] at equal
        omega
      · exact ⟨1, by omega, by omega, two⟩
    obtain ⟨k, low, high, apart⟩ := eligible
    obtain ⟨s, t, lease, leased, outside⟩ := leaseBeyond spans free wraps low high apart ""
    have inside := always "" s t lease leased
    rw [outside] at inside
    contradiction
  · intro straight σ _ owner s t lease leased
    obtain ⟨_, _, member | ⟨free, member⟩⟩ := allocateFound leased
    · exact member
    · exact spans.within subnet.1 (fun wraps => straight ⟨free, wraps⟩) member

def topmost : Network :=
  ⟨"net", .around (.wrap .v4 4294967295) 32, none, none, none, none, []⟩

theorem topmostEscapes :
    Subnet.ofLength (.wrap .v4 4294967295) 32 = .ok topmost.subnet ∧
    ∃ r, Allocator.ofNetwork topmost = .ok r ∧
      ¬ ∀ {σ : Type} [Store σ] (owner : String) (s t : σ) (lease : Lease),
        r.allocate owner s = (.ok lease, t) → topmost.subnet.contains lease.address = true := by
  have cidr : Subnet.ofLength (.wrap .v4 4294967295) 32 = .ok topmost.subnet := rfl
  have accepted : Allocator.ofNetwork topmost =
      .ok ⟨topmost, ⟨.wrap .v4 0, .wrap .v4 4294967295⟩⟩ := rfl
  refine ⟨cidr, _, accepted, ?_⟩
  rw [(leasesInside cidr accepted).2, not_not]
  exact ⟨rfl, rfl, .inr ⟨rfl, rfl⟩⟩

end Allocator
end AddressPool
