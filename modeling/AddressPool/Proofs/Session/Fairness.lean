import AddressPool.Proofs.Allocator.Search
import AddressPool.Proofs.Session.Quiet

/-! Every free address has its turn before any other one is leased a second time, whatever is
requested and released in between and through whichever instance. The turns go round from the
marker, so an address that has been leased is the last to come again. -/
namespace AddressPool
open Bytes

def Deals (r : Allocator) (before : Table) (owner : String) (lease : Lease) (table : Table) : Prop :=
  r.nextFree before = some lease.address ∧ table = before.put lease.address owner

theorem dealsSize {r : Allocator} {before table : Table} {owner : String} {lease : Lease}
    (deals : Deals r before owner lease table) : table.size ≤ before.size + 1 := by
  rw [deals.2]
  exact Table.sizePut before lease.address owner

section Requests

variable {r : Allocator} (unasked : r.network.requested = none) (bounded : r.range.Bounded)
variable (owner : String)

namespace Disk

variable {s t : Disk} {handle : Folder.LockHandle} {before : LockedState} {i : Image}
variable {synced number : Nat} {table : Table}

include unasked bounded

theorem claimEnds (keeps : Keeps t before i ⟨[], [], synced⟩) (mends : t.folder.Mends) :
    Ends t before i synced
      (fun a table => r.nextFree before.table = some a ∧ table = before.table.put a owner)
      (r.pick owner t) := by
  rw [Allocator.pickTurn unasked bounded (steadyLocked keeps) owner]
  cases next : r.nextFree before.table with
  | none => exact ⟨before, _, keeps, .refl t, rfl⟩
  | some a =>
    have ends := reserveEnds keeps mends owner (Allocator.nextFreeVacant bounded next).2
    simp only [Allocator.claim, show Store.reserve owner a t = t.reserve owner a from rfl]
    generalize t.reserve owner a = outcome at ends ⊢
    rcases outcome with ⟨fault | done, u⟩
    · exact ends
    · obtain ⟨within, ⟨held, c, kept, short, _, changed⟩ | ⟨operation, overran, new, _, changed⟩⟩ :=
        ends
      · exact ⟨within, .inl ⟨held, c, kept, short, rfl, changed⟩⟩
      · exact ⟨within, .inr ⟨operation, overran, new, rfl, changed⟩⟩

theorem Rests.deals (few : number + 1 < space 8) (size : table.size ≤ number)
    (rests : Rests s handle table number) :
    Settles (Rests · handle · (number + 1)) table (Deals r table owner) (r.allocate owner s) := by
  have settles := rests.settles few (by omega) (r.pick owner)
    (fun a after => r.nextFree table = some a ∧ after = table.put a owner) ?_
  · exact settles.leased
  · rintro t before i synced rfl keeps mends
    exact claimEnds unasked bounded owner keeps mends

end Disk
namespace Memory

variable {t : Table}

include unasked bounded in
theorem deals : Settles (fun u table => u = Memory.mk false ⟨false, table⟩) t (Deals r t owner)
    (r.allocate owner (Memory.mk false ⟨false, t⟩)) := by
  have picked := Allocator.pickTurn unasked bounded (steady t) owner
  have locked : Store.lock (Memory.mk false ⟨false, t⟩) = (.ok (), ⟨true, ⟨true, t⟩⟩) := rfl
  have settles : Settles (fun u table => u = Memory.mk false ⟨false, table⟩) t
      (fun a table => r.nextFree t = some a ∧ table = t.put a owner)
      (Store.whileLocked (r.pick owner) (Memory.mk false ⟨false, t⟩)) := by
    simp only [Store.whileLocked, locked, picked]
    cases next : r.nextFree t with
    | none => rfl
    | some a =>
      have unowned := (Allocator.nextFreeVacant bounded next).2
      have reserved : Store.reserve owner a (Memory.mk true ⟨true, t⟩) =
          (.ok true, ⟨true, ⟨true, t.put a owner⟩⟩) := by
        simp [Store.reserve, reserve, Table.tryReserveFree unowned, withTable]
      simp only [Allocator.claim, reserved]
      exact ⟨_, ⟨rfl, rfl⟩, rfl⟩
  exact settles.leased

end Memory
end Requests

namespace Allocator

variable {r : Allocator} {t after : Table} {a c : Address} {owner : String}

def Follows (r : Allocator) (t after : Table) (leased : Option (Address × String)) : Prop :=
  match leased with
  | some (a, owner) => r.nextFree t = some a ∧ after = t.put a owner
  | none => after.marker = t.marker

def Awaits (r : Allocator) (t : Table) (c a : Address) : Prop :=
  t.owner? c = none → ∃ m, t.marker = some m ∧ r.range.contains m = true ∧ Address.Sooner m c a

section Turns

variable (bounded : r.range.Bounded)
include bounded

theorem awaitsLeased (dealt : r.nextFree t = some a) (apart : c ≠ a) (owner : String) :
    r.Awaits (t.put a owner) c a :=
  fun _ => ⟨a, rfl, nextFreeInside bounded dealt, Address.soonerSelf apart⟩

variable (awaits : r.Awaits t c a) (candidate : c ∈ r.candidates) (unowned : t.owner? c = none)
include awaits candidate unowned

theorem Awaits.refused (apart : c ≠ a) : r.nextFree t ≠ some a := by
  obtain ⟨m, marker, inside, sooner⟩ := awaits unowned
  intro dealt
  rcases nextFreeSoonest bounded dealt marker inside candidate unowned sooner.apart.symm with
    same | before
  · exact apart same
  · exact sooner.asymm before

theorem Awaits.follows {leased : Option (Address × String)} (follows : r.Follows t after leased) :
    r.Awaits after c a := by
  intro still
  obtain ⟨m, marker, inside, sooner⟩ := awaits unowned
  cases leased with
  | none => exact ⟨m, follows.trans marker, inside, sooner⟩
  | some lease =>
    -- What was leased instead had its turn before `c`, and it is the marker now.
    obtain ⟨dealt, rfl⟩ := follows
    rcases nextFreeSoonest bounded dealt marker inside candidate unowned sooner.apart.symm with
      rfl | before
    · simp at still
    · exact ⟨lease.1, rfl, nextFreeInside bounded dealt, before.onward sooner⟩

end Turns
end Allocator

namespace Session

def Ask.Uses (network : Network) (ask : Ask) : Prop :=
  match ask.request with
  | .enter _ => True
  | .allocate n _ => n = network
  | .release n _ => n = network

section Fairness

variable {first : String} {b : Backing} {h : Host} {t : Table} {count : Nat} {r : Allocator}
variable (accepted : Allocator.ofNetwork r.network = .ok r)
variable (unasked : r.network.requested = none) (bounded : r.range.Bounded)
include accepted unasked bounded

theorem serveFollows (quiet : Quiet first b h t count) (counts : b.Counts (count + 1)) {ask : Ask}
    (uses : ask.Uses r.network) :
    ∃ after, Quiet first b (b.serve first ask h).2 after (count + 1) ∧
      r.Follows t after (ask.lease? (b.serve first ask h).1) := by
  obtain ⟨id, time, request⟩ := ask
  have timed := quiet.timed time
  cases request with
  | enter settings => exact ⟨t, (timed.entered id settings).later (Nat.le_succ count), rfl⟩
  | allocate network owner =>
    obtain rfl := uses
    obtain ⟨reply, next, after, replied, quiet, outcome⟩ :=
      timed.requested id .leased (r.allocate owner) dealsSize counts
        (Disk.Rests.deals unasked bounded owner) (Memory.deals unasked bounded owner)
    simp only [Backing.serve, accepted, replied]
    refine ⟨after, quiet, ?_⟩
    rcases outcome with ⟨rfl, rfl | ⟨fault, rfl⟩⟩ | ⟨lease, rfl, deals⟩
    · exact rfl
    · exact rfl
    · exact deals
  | release network owner =>
    obtain rfl := uses
    obtain ⟨reply, next, after, replied, quiet, outcome⟩ :=
      timed.requested id .released (r.release owner) freesSize counts
        (fun few size rests => rests.frees few size r owner) (Memory.frees t r owner)
    simp only [Backing.serve, accepted, replied]
    refine ⟨after, quiet, ?_⟩
    rcases outcome with ⟨rfl, rfl | ⟨fault, rfl⟩⟩ | ⟨done, rfl, frees⟩
    · exact rfl
    · exact rfl
    · rw [Frees] at frees
      rw [frees]
      exact Table.markerFreeAll t _

theorem serveAllQuiet (quiet : Quiet first b h t count) {asks : List Ask}
    (uses : ∀ ask ∈ asks, ask.Uses r.network) (counts : b.Counts (count + asks.length)) :
    ∃ after, Quiet first b (b.serveAll first asks h).2 after (count + asks.length) := by
  induction asks generalizing h t count with
  | nil => exact ⟨t, quiet⟩
  | cons ask rest ih =>
    rw [List.length_cons, ← Nat.add_assoc, Nat.add_right_comm] at counts ⊢
    obtain ⟨after, quiet, _⟩ := serveFollows accepted unasked bounded quiet
      (countsLess counts (Nat.le_add_right _ _)) (uses ask List.mem_cons_self)
    exact ih quiet (fun other member => uses other (List.mem_cons_of_mem ask member)) counts

omit accepted unasked bounded in
theorem unownedOf {c : Address} (quiet : Quiet first b h t count) (counts : b.Counts count)
    (free : ∀ listed, Lists first h listed → c ∉ listed.map Prod.fst) : t.owner? c = none := by
  rw [Option.eq_none_iff_forall_ne_some]
  intro owner owned
  have member := (Table.memToList t c owner).mpr owned
  exact free t.toList (quiet.lists counts) (List.mem_map_of_mem member)

theorem serveAllAwaits {a c : Address} (candidate : c ∈ r.candidates)
    (quiet : Quiet first b h t count) (awaits : r.Awaits t c a) {asks : List Ask}
    (uses : ∀ ask ∈ asks, ask.Uses r.network) (counts : b.Counts (count + asks.length))
    (free : ∀ past still listed, asks = past ++ still →
      Lists first (b.serveAll first past h).2 listed → c ∉ listed.map Prod.fst) :
    ∃ after, Quiet first b (b.serveAll first asks h).2 after (count + asks.length) ∧
      after.owner? c = none ∧ r.Awaits after c a := by
  have unowned := unownedOf quiet (countsLess counts (Nat.le_add_right _ _))
    fun listed => free [] asks listed rfl
  induction asks generalizing h t count with
  | nil => exact ⟨t, quiet, unowned, awaits⟩
  | cons ask rest ih =>
    rw [List.length_cons, ← Nat.add_assoc, Nat.add_right_comm] at counts ⊢
    have enough := countsLess counts (Nat.le_add_right (count + 1) rest.length)
    obtain ⟨after, quiet, follows⟩ := serveFollows accepted unasked bounded quiet enough
      (uses ask List.mem_cons_self)
    have later (past still : List Ask) (listed : List (Address × String))
        (same : rest = past ++ still) :=
      free (ask :: past) still listed (congrArg (ask :: ·) same)
    exact ih quiet (awaits.follows bounded candidate unowned follows)
      (fun other member => uses other (List.mem_cons_of_mem ask member)) counts later
      (unownedOf quiet enough fun listed => later [] rest listed rfl)

omit accepted unasked bounded

/-- Between two leases of the same address every other one that may be leased has an owner at some
moment, from the first of them on to the last moment before the second. -/
theorem turnsFair {n : Network} (quiet : Quiet first b h t count)
    (accepted : Allocator.ofNetwork n = .ok r) (unasked : n.requested = none)
    (less : ¬ (r.range.start.isZero ∧ r.range.stop.isZero)) (asks : List Ask)
    (uses : ∀ ask ∈ asks, ask.Uses n) (counts : b.Counts (count + asks.length)) :
    ∀ front one middle two rest, asks = front ++ one :: (middle ++ two :: rest) →
      ∀ earlier between later after a owner other,
        b.serve first one (b.serveAll first front h).2 = (earlier, between) →
        one.lease? earlier = some (a, owner) →
        b.serve first two (b.serveAll first middle between).2 = (later, after) →
        two.lease? later = some (a, other) →
        ∀ c, r.range.contains c = true → c ≠ r.gateway → c ≠ a →
          ∃ past still listed, middle = past ++ still ∧
            Lists first (b.serveAll first past between).2 listed ∧ c ∈ listed.map Prod.fst := by
  obtain ⟨rfl, range⟩ := Allocator.networkOf accepted
  have bounded : r.range.Bounded := ⟨Network.rangeFamily range, less⟩
  rintro front one middle two rest rfl earlier between later after a owner other served leased
    again repeated c inside gateway apart
  have candidate := (Allocator.memCandidates bounded).mpr ⟨inside, gateway⟩
  simp only [List.length_append, List.length_cons] at counts
  by_contra never
  have free (past still : List Ask) (listed : List (Address × String)) (same : middle = past ++ still)
      (lists : Lists first (b.serveAll first past between).2 listed) : c ∉ listed.map Prod.fst :=
    fun member => never ⟨past, still, listed, same, lists, member⟩
  obtain ⟨before, quiet⟩ := @serveAllQuiet first b h t count r accepted unasked bounded quiet front
    (fun ask member => uses ask (by simp [member])) (countsLess counts (by omega))
  obtain ⟨t, quiet, follows⟩ := serveFollows accepted unasked bounded quiet
    (countsLess counts (by omega)) (uses one (by simp))
  rw [served] at quiet follows
  rw [leased] at follows
  obtain ⟨dealt, rfl⟩ := follows
  -- From here on the other one is ahead of `a`, and it stays so while nobody has it.
  obtain ⟨last, quiet, unowned, awaits⟩ := @serveAllAwaits first b _ _ _ r accepted unasked bounded
    a c candidate quiet (Allocator.awaitsLeased bounded dealt apart owner) middle
    (fun ask member => uses ask (by simp [member])) (countsLess counts (by omega)) free
  obtain ⟨_, _, follows⟩ := serveFollows accepted unasked bounded quiet
    (countsLess counts (by omega)) (uses two (by simp))
  rw [again, repeated] at follows
  exact awaits.refused bounded candidate unowned apart follows.1

end Fairness

def couple : Allocator where
  network := ⟨"net", .around (.wrap .v4 0x0A000000) 29, none, some (.wrap .v4 0x0A000003), none, none,
    []⟩
  range := ⟨.wrap .v4 0x0A000001, .wrap .v4 0x0A000004⟩

def firstTurn : Ask := ⟨"a", 1, .allocate couple.network "pod"⟩

def meanwhile : List Ask :=
  [⟨"b", 2, .enter {}⟩, ⟨"b", 3, .allocate couple.network "other"⟩,
    ⟨"a", 4, .release couple.network "pod"⟩]

def secondTurn : Ask := ⟨"b", 5, .allocate couple.network "pod"⟩

theorem coupleFair :
    let start := Backing.memory.start "/data" "a" {}
    let between := (Backing.memory.serve "a" firstTurn start).2
    let later := Backing.memory.serve "a" secondTurn (Backing.memory.serveAll "a" meanwhile between).2
    secondTurn.lease? later.1 = some (.wrap .v4 0x0A000002, "pod") ∧
    ∃ past still listed, meanwhile = past ++ still ∧
      Lists "a" (Backing.memory.serveAll "a" past between).2 listed ∧
      .wrap .v4 0x0A000003 ∈ listed.map Prod.fst := by
  intro start between later
  have opened : Backing.memory.Opens "/data" "a" {} := trivial
  have quiet : Quiet "a" .memory start (tableOf []) 0 := (Rests.start opened).quiet
  have accepted : Allocator.ofNetwork couple.network = .ok couple := rfl
  have uses : ∀ ask ∈ [] ++ firstTurn :: (meanwhile ++ secondTurn :: []), ask.Uses couple.network := by
    simp [firstTurn, meanwhile, secondTurn, Ask.Uses]
  have leased : firstTurn.lease? (Backing.memory.serve "a" firstTurn start).1 =
      some (.wrap .v4 0x0A000002, "pod") := by decide +kernel
  have repeated : secondTurn.lease? later.1 = some (.wrap .v4 0x0A000002, "pod") := by
    decide +kernel
  have fair := turnsFair quiet accepted rfl (by decide) _ uses trivial [] firstTurn meanwhile
    secondTurn [] rfl (Backing.memory.serve "a" firstTurn start).1 between later.1 later.2
  exact ⟨repeated, fair (.wrap .v4 0x0A000002) "pod" "pod" Prod.mk.eta.symm leased Prod.mk.eta.symm
    repeated (.wrap .v4 0x0A000003) (by decide) (by decide) (by decide)⟩

end Session
end AddressPool
