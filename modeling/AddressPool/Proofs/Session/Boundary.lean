import AddressPool.Proofs.Allocator.Lease
import AddressPool.Proofs.Session.Quiet

/-! The first and the last address of a subnet. Neither is ever reserved but for a request that named
it: as the address it insisted on, or as a bound of its range, where bounds are taken as they are. -/
namespace AddressPool
open Bytes

namespace Host

variable {α : Type} {id : String} {h next : Host} {answer : α}

theorem callAnswered {run : {σ : Type} → [Store σ] → σ → α × σ}
    (called : h.call id run = some (answer, next)) (told : α → Prop)
    (spec : ∀ {σ : Type} [Store σ] (s : σ), told (run s).1) : told answer := by
  obtain ⟨i, _, same⟩ := Option.map_eq_some_iff.mp called
  cases i with
  | disk network store =>
    obtain ⟨rfl, _⟩ := Prod.mk.inj same
    exact spec _
  | memory table holding =>
    obtain ⟨rfl, _⟩ := Prod.mk.inj same
    exact spec _

end Host
namespace Session

def Ask.Reaches (ask : Ask) (a : Address) (owner : String) : Prop :=
  ∃ network r, ask.request = .allocate network owner ∧ Allocator.ofNetwork network = .ok r ∧ r.Names a

theorem leasedNamed {id : String} {r : Allocator} {owner : String} {h next : Host} {lease : Lease}
    (replied : request id .leased (r.allocate owner) h = (.leased (.ok lease), next)) :
    r.Names lease.address := by
  unfold request at replied
  split at replied
  · next called =>
    cases replied
    refine Host.callAnswered called (fun answer => ∀ lease, answer = .ok lease → r.Names lease.address)
      ?_ lease rfl
    intro σ _ s lease leased
    obtain ⟨_, _, picked, _⟩ := Allocator.allocatePicked (Prod.ext leased rfl)
    exact Allocator.pickNamed picked
  · cases replied

section Serving

variable {first : String} {b : Backing} {h : Host} {t : Table} {count : Nat}

theorem serveReaches (quiet : Quiet first b h t count) (counts : b.Counts (count + 1)) (ask : Ask) :
    ∃ after, Quiet first b (b.serve first ask h).2 after (count + 1) ∧
      ∀ a owner, after.owner? a = some owner → t.owner? a = some owner ∨ ask.Reaches a owner := by
  obtain ⟨id, time, request⟩ := ask
  have timed := quiet.timed time
  have still {next : Host} (quiet : Quiet first b next t count) :
      ∃ after, Quiet first b next after (count + 1) ∧ ∀ a owner, after.owner? a = some owner →
        t.owner? a = some owner ∨ Ask.Reaches ⟨id, time, request⟩ a owner :=
    ⟨t, quiet.later (Nat.le_succ count), fun _ _ owned => .inl owned⟩
  cases request with
  | enter settings => exact still (timed.entered id settings)
  | allocate network owner =>
    simp only [Backing.serve]
    cases accepted : Allocator.ofNetwork network with
    | error fault => exact still timed
    | ok r =>
      obtain ⟨reply, next, after, replied, quiet, outcome⟩ :=
        timed.requested id .leased (r.allocate owner) grantsSize counts
          (fun few size rests => rests.grants few size r owner) (Memory.grants t r owner)
      simp only [replied]
      refine ⟨after, quiet, ?_⟩
      rcases outcome with ⟨rfl, _⟩ | ⟨lease, rfl, _, granted⟩
      · exact fun _ _ owned => .inl owned
      · intro a other owned
        rw [granted, Table.ownerPut] at owned
        split at owned
        · next same =>
          cases owned
          exact .inr ⟨_, r, rfl, accepted, same ▸ leasedNamed replied⟩
        · exact .inl owned
  | release network owner =>
    simp only [Backing.serve]
    cases accepted : Allocator.ofNetwork network with
    | error fault => exact still timed
    | ok r =>
      obtain ⟨reply, next, after, replied, quiet, outcome⟩ :=
        timed.requested id .released (r.release owner) freesSize counts
          (fun few size rests => rests.frees few size r owner) (Memory.frees t r owner)
      simp only [replied]
      refine ⟨after, quiet, fun a other owned => .inl ?_⟩
      rcases outcome with ⟨rfl, _⟩ | ⟨done, _, frees⟩
      · exact owned
      · rw [show after = _ from frees, Table.ownerFreeAll] at owned
        split at owned
        · contradiction
        · exact owned

theorem serveAllReaches (quiet : Quiet first b h t count) {asks : List Ask}
    (counts : b.Counts (count + asks.length)) :
    ∃ after, Quiet first b (b.serveAll first asks h).2 after (count + asks.length) ∧
      ∀ a owner, after.owner? a = some owner →
        t.owner? a = some owner ∨ ∃ ask ∈ asks, ask.Reaches a owner := by
  induction asks generalizing h t count with
  | nil => exact ⟨t, quiet, fun _ _ owned => .inl owned⟩
  | cons ask rest ih =>
    rw [List.length_cons, ← Nat.add_assoc, Nat.add_right_comm] at counts ⊢
    obtain ⟨between, quiet, served⟩ :=
      serveReaches quiet (countsLess counts (Nat.le_add_right _ _)) ask
    obtain ⟨after, quiet, rested⟩ := ih quiet counts
    refine ⟨after, quiet, fun a owner owned => ?_⟩
    rcases rested a owner owned with before | ⟨other, member, reaches⟩
    · rcases served a owner before with first | reaches
      · exact .inl first
      · exact .inr ⟨ask, List.mem_cons_self, reaches⟩
    · exact .inr ⟨other, List.mem_cons_of_mem ask member, reaches⟩

end Serving

namespace Ask

def Within (subnet : Subnet) (ask : Ask) : Prop :=
  match ask.request with
  | .enter _ => True
  | .allocate network _ => network.subnet = subnet
  | .release network _ => network.subnet = subnet

def Names (bound : Network → Option Address) (ask : Ask) (a : Address) (owner : String) : Prop :=
  ∃ network, ask.request = .allocate network owner ∧
    (network.requested = some a ∨ network.requested = none ∧ bound network = some a)

theorem Reaches.names {ask : Ask} {a : Address} {owner : String} (reaches : ask.Reaches a owner)
    {bound : Network → Option Address}
    (bounds : ∀ {network r}, ask.request = .allocate network owner →
      Allocator.ofNetwork network = .ok r → r.range.contains a = true → bound network = some a) :
    ask.Names bound a owner := by
  obtain ⟨network, r, asked, accepted, named⟩ := reaches
  refine ⟨network, asked, ?_⟩
  rw [Allocator.Names, (Allocator.networkOf accepted).1] at named
  rcases named with insisted | ⟨free, inside⟩
  · exact .inl insisted
  · exact .inr ⟨free, bounds asked accepted inside⟩

end Ask

/-- The subnet's own address has an owner only if a request for that owner named it, as its own or as
the start of its range, and the last address only if one named it, as its own or as the end. -/
theorem edgesNamed {x low high : Address} {length : Nat} {subnet : Subnet}
    (cidr : Subnet.ofLength x length = .ok subnet) (wide : length < 8 * x.family.width)
    (ends : subnet.bounds = .ok (low, high)) {first : String} {b : Backing} {h : Host} {t : Table}
    {count : Nat} (quiet : Quiet first b h t count) (lowFree : t.owner? low = none)
    (highFree : t.owner? high = none) (asks : List Ask) (within : ∀ ask ∈ asks, ask.Within subnet)
    (counts : b.Counts (count + asks.length)) :
    ∃ listed, Lists first (b.serveAll first asks h).2 listed ∧ ∀ owner,
      ((low, owner) ∈ listed → ∃ ask ∈ asks, ask.Names Network.first low owner) ∧
      ((high, owner) ∈ listed → ∃ ask ∈ asks, ask.Names Network.last high owner) := by
  obtain ⟨after, quiet, reached⟩ := serveAllReaches quiet counts
  have around : subnet = .around x length := by
    unfold Subnet.ofLength at cidr
    split at cidr
    · contradiction
    · exact (Except.ok.inj cidr).symm
  obtain ⟨top, bounds, _, value⟩ := Subnet.boundsAround x length
  simp only [Subnet.bounds, around, bounds] at ends
  cases ends
  have spans {ask : Ask} (member : ask ∈ asks) {network : Network} {owner : String} {r : Allocator}
      (asked : ask.request = .allocate network owner)
      (accepted : Allocator.ofNetwork network = .ok r) :
      Network.Spans network r.range x length := by
    have inside := within ask member
    rw [Ask.Within, asked] at inside
    exact Network.rangeSpans (inside.trans around) (Allocator.networkOf accepted).2
  have asked {a : Address} {owner : String} (free : t.owner? a = none)
      (listed : (a, owner) ∈ after.toList) : ∃ ask ∈ asks, ask.Reaches a owner := by
    rcases reached a owner ((Table.memToList after a owner).mp listed) with before | later
    · rw [free] at before
      contradiction
    · exact later
  refine ⟨after.toList, quiet.lists counts, fun owner => ⟨fun listed => ?_, fun listed => ?_⟩⟩
  · obtain ⟨ask, member, reaches⟩ := asked lowFree listed
    refine ⟨ask, member, reaches.names fun asked accepted inside => ?_⟩
    have spans := spans member asked accepted
    exact spans.firstNamed wide inside (congrArg (Address.value ∘ Subnet.address) spans.subnet).symm
  · obtain ⟨ask, member, reaches⟩ := asked highFree listed
    refine ⟨ask, member, reaches.names fun asked accepted inside => ?_⟩
    have spans := spans member asked accepted
    refine spans.lastNamed wide inside (value.trans ?_)
    rw [spans.subnet]

def four (first last : Option Address) : Network :=
  ⟨"net1", .around (.wrap .v4 0x0A000000) 30, first, last, none, none, []⟩

def thrice (network : Network) : List Ask :=
  [⟨"m", 1, .allocate network "a"⟩, ⟨"m", 2, .allocate network "b"⟩, ⟨"m", 3, .allocate network "c"⟩]

theorem fourUnnamed :
    let low : Address := .wrap .v4 0x0A000000
    let high : Address := .wrap .v4 0x0A000003
    let start := (Backing.disk "net1").start "/data" "m" {}
    ((Backing.disk "net1").Opens "/data" "m" {} ∧ (Backing.disk "net1").Counts 3 ∧
      Subnet.ofLength low 30 = .ok (four none none).subnet ∧
      (four none none).subnet.bounds = .ok (low, high)) ∧
    ∃ listed, Lists "m" ((Backing.disk "net1").serveAll "m" (thrice (four none none)) start).2 listed ∧
      ∀ owner, (low, owner) ∉ listed ∧ (high, owner) ∉ listed := by
  intro low high start
  have opens : (Backing.disk "net1").Opens "/data" "m" {} := rfl
  have counts : (Backing.disk "net1").Counts (0 + 3) := by
    change 3 < space 8
    decide
  have cidr : Subnet.ofLength low 30 = .ok (four none none).subnet := rfl
  have ends : (four none none).subnet.bounds = .ok (low, high) := rfl
  have within : ∀ ask ∈ thrice (four none none), ask.Within (four none none).subnet := by
    simp [thrice, Ask.Within]
  obtain ⟨listed, lists, named⟩ := edgesNamed cidr (by decide) ends (Rests.start opens).quiet
    (Table.ownerEmpty low) (Table.ownerEmpty high) (thrice (four none none)) within counts
  have unnamed (bound : Network → Option Address) (free : bound (four none none) = none)
      (a : Address) (owner : String) :
      ¬ ∃ ask ∈ thrice (four none none), ask.Names bound a owner := by
    rintro ⟨ask, member, network, asked, named⟩
    have same : network = four none none := by
      simp only [thrice, List.mem_cons, List.not_mem_nil, or_false] at member
      rcases member with rfl | rfl | rfl <;> cases asked <;> rfl
    rw [same, free] at named
    rcases named with insisted | ⟨_, bounded⟩
    · cases insisted
    · cases bounded
  refine ⟨⟨opens, counts, cidr, ends⟩, listed, lists, fun owner => ⟨?_, ?_⟩⟩
  · exact fun member => unnamed _ rfl low owner ((named owner).1 member)
  · exact fun member => unnamed _ rfl high owner ((named owner).2 member)

theorem fourHeld :
    let low : Address := .wrap .v4 0x0A000000
    let high : Address := .wrap .v4 0x0A000003
    Subnet.ofLength low 30 = .ok (four (some low) (some high)).subnet ∧
    (four (some low) (some high)).subnet.bounds = .ok (low, high) ∧
    (∃ r, Allocator.ofNetwork (four (some low) (some high)) = .ok r) ∧
    Lists "m" (Backing.memory.serveAll "m" (thrice (four (some low) (some high)))
      (Backing.memory.start "/data" "m" {})).2
      [(low, "a"), (.wrap .v4 0x0A000002, "b"), (high, "c")] := by
  intro low high
  let served := (Backing.memory.serveAll "m" (thrice (four (some low) (some high)))
    (Backing.memory.start "/data" "m" {})).2
  have found : served.find? "m" = some (.memory 0 false) := by decide +kernel
  have read : reservationsOf served (.memory 0 false) =
      .ok [(low, "a"), (.wrap .v4 0x0A000002, "b"), (high, "c")] := by decide +kernel
  have begun : Rests "m" .memory (Backing.memory.start "/data" "m" {}) [] := Rests.start trivial
  obtain ⟨log, rests, _, _⟩ := @serveAllServed "m" .memory _ _ _ begun Table.matchesEmpty
    (thrice (four (some low) (some high))) trivial
  have lists := rests.lists
  have same := lists.2 "m" _ found
  rw [read] at same
  rw [← Except.ok.inj same] at lists
  have accepted : Allocator.ofNetwork (four (some low) (some high)) =
      .ok ⟨four (some low) (some high), ⟨low, .wrap .v4 0x0A000004⟩⟩ := by decide +kernel
  have cidr : Subnet.ofLength low 30 = .ok (four (some low) (some high)).subnet := rfl
  have ends : (four (some low) (some high)).subnet.bounds = .ok (low, high) := by decide +kernel
  exact ⟨cidr, ends, ⟨_, accepted⟩, lists⟩

end Session
end AddressPool
