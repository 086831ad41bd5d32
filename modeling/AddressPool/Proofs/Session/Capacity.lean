import AddressPool.Proofs.Allocator.Search
import AddressPool.Proofs.Session.Requests
import Mathlib.Data.List.Basic

/-! The capacity of a network. From an empty store the leases come in ascending order, whoever
asks and through whichever instance, until every address but the gateway has been leased; from
then on the pool is exhausted. -/
namespace AddressPool

namespace Allocator

def nthAnswer (r : Allocator) (k : Nat) : Except Fault Lease :=
  match r.candidates[k]? with
  | some a => .ok (r.lease a)
  | none => .error (.exhausted r.network.name)

structure Filled (r : Allocator) (k : Nat) (t : Table) : Prop where
  owned : ∀ a, t.owner? a = none ↔ a ∉ r.candidates.take k
  marker : t.marker = (r.candidates.take k).getLast?

section Filling

variable {r : Allocator} {k : Nat} {t : Table}

theorem filledEmpty (r : Allocator) : r.Filled 0 Table.empty := ⟨by simp, rfl⟩

theorem findVacant (r : Allocator) (t : Table) (addresses : List Address) :
    addresses.find? (r.vacant t) =
      (addresses.filter (· ≠ r.gateway)).find? fun a => decide (t.owner? a = none) := by
  rw [List.find?_filter]
  congr 1
  funext a
  simp [vacant]

variable (filled : r.Filled k t)
include filled

theorem Filled.next (bounded : r.range.Bounded) : r.nextFree t = r.candidates[k]? := by
  have ascending := candidatesAscending bounded
  have parts := List.take_append_drop k r.candidates
  have across := (List.pairwise_append.mp (parts.symm ▸ ascending)).2.2
  -- Past the first ones everything is free, so the first of the rest is found.
  have rest : (r.candidates.drop k).find? (fun a => decide (t.owner? a = none)) =
      r.candidates[k]? := by
    rw [← List.head?_drop]
    cases later : r.candidates.drop k with
    | nil => rfl
    | cons a others =>
      rw [later] at across
      refine List.find?_cons_of_pos (decide_eq_true ?_)
      rw [filled.owned]
      intro before
      exact Address.ltIrrefl a (across a before a List.mem_cons_self)
  have done {addresses : List Address} (front : ∀ a ∈ addresses, a ∈ r.candidates.take k) :
      addresses.find? (fun a => decide (t.owner? a = none)) = none := by
    rw [List.find?_eq_none]
    intro a member free
    exact (filled.owned a).mp (of_decide_eq_true free) (front a member)
  rw [nextFree, findVacant, filled.marker]
  cases last : (r.candidates.take k).getLast? with
  | none =>
    have nothing := List.getLast?_eq_none_iff.mp last
    rw [nothing, List.nil_append] at parts
    change r.candidates.find? _ = _
    rw [← rest, parts]
  | some m =>
    obtain ⟨lower, front⟩ := List.getLast?_eq_some_iff.mp last
    have split : r.candidates = lower ++ m :: r.candidates.drop k := by
      have whole := parts.symm
      rwa [front, List.append_assoc] at whole
    have inside : r.range.contains m = true := by
      refine ((memCandidates bounded).mp ?_).1
      rw [split]
      simp
    have turns : (r.range.turns (some m)).filter (· ≠ r.gateway) = r.candidates.drop k ++ lower := by
      rw [split] at ascending
      have above := Address.filterAbove ascending
      have below := Address.filterBelow ascending
      rw [← split] at above below
      rw [Range.turns, if_pos inside, List.filter_append, List.filter_comm,
        show (r.range.members.filter _).filter _ = _ from above, List.filter_comm,
        show (r.range.members.filter _).filter _ = _ from below]
    rw [turns, List.find?_append, rest, done, Option.or_none]
    intro a member
    rw [front]
    exact List.mem_append_left [m] member

theorem Filled.put {a : Address} (next : r.candidates[k]? = some a) (owner : String) :
    r.Filled (k + 1) (t.put a owner) := by
  have longer : r.candidates.take (k + 1) = r.candidates.take k ++ [a] := by
    rw [List.take_add_one, next]
    rfl
  constructor
  · intro b
    rw [longer, Table.ownerPut]
    split
    · next same => simp [same]
    · next differ =>
      rw [filled.owned, List.mem_append, List.mem_singleton, not_or]
      exact (and_iff_left (Ne.symm differ)).symm
  · rw [longer, List.getLast?_concat]
    rfl

theorem Filled.still (last : r.candidates[k]? = none) : r.Filled (k + 1) t := by
  have same : r.candidates.take (k + 1) = r.candidates.take k := by
    rw [List.take_add_one, last]
    exact List.append_nil _
  exact ⟨by rw [same]; exact filled.owned, by rw [same]; exact filled.marker⟩

end Filling
end Allocator

namespace Session
open Bytes

def Reply.leased? : Reply → Option (Except Fault Lease)
  | .leased result => some result
  | _ => none

namespace Ask

def isAllocate (ask : Ask) : Bool :=
  match ask.request with
  | .allocate _ _ => true
  | _ => false

def Seeks (b : Backing) (r : Allocator) (ask : Ask) : Prop :=
  match ask.request with
  | .enter _ => True
  | .allocate network owner =>
      network = r.network ∧ ∀ a ∈ r.candidates, b.takes (.reserve a owner)
  | .release _ _ => False

end Ask

def Attended : List String → List Ask → Prop
  | _, [] => True
  | there, ask :: rest =>
      match ask.request with
      | .enter _ => Attended (ask.id :: there) rest
      | _ => ask.id ∈ there ∧ Attended there rest

section Seeking

variable {first : String} {b : Backing} {h : Host} {log : List Operation} {r : Allocator} {k : Nat}
variable {there : List String}

structure Sought (first : String) (b : Backing) (r : Allocator) (k : Nat) (there : List String)
    (h : Host) (log : List Operation) : Prop where
  rests : Rests first b h log
  known : ∀ id ∈ there, (h.find? id).isSome
  filled : r.Filled k (tableOf log)
  few : log.length ≤ k
  most : log.length ≤ r.candidates.length

theorem Sought.timed (sought : Sought first b r k there h log) (time : Nat) :
    Sought first b r k there (b.setTime time h) log :=
  { sought with
    rests := sought.rests.timed time
    known := by
      intro id member
      rw [findTimed]
      exact sought.known id member }

theorem Sought.entered (sought : Sought first b r k there h log) (id : String)
    (settings : StoreSettings) :
    Sought first b r k (id :: there) (b.enter first id settings h).2 log := by
  obtain ⟨rests, known⟩ := sought.rests.entered id settings
  refine { sought with rests, known := ?_ }
  intro other member
  rw [known]
  rcases List.mem_cons.mp member with rfl | before
  · simp
  · simp [sought.known other before]

variable (unasked : r.network.requested = none) (bounded : r.range.Bounded)
variable (sought : Sought first b r k there h log)
include unasked bounded sought

theorem allocateSought (counts : b.Counts (log.length + 1)) {id : String} (member : id ∈ there)
    (owner : String) (fits : ∀ a ∈ r.candidates, b.takes (.reserve a owner)) :
    ∃ next longer, request id .leased (r.allocate owner) h = (.leased (r.nthAnswer k), next) ∧
      Sought first b r (k + 1) there next longer := by
  obtain ⟨i, found⟩ := Option.isSome_iff_exists.mp (sought.known id member)
  obtain ⟨answer, longer, next, called, rests, _, turned⟩ :=
    sought.rests.called counts found (r.allocate owner)
      (Allocator.Turned r b.takes log owner)
      fun laws _ idle roomy => Allocator.allocateTurn laws unasked bounded owner idle roomy
  have known (other : String) (member : other ∈ there) : (next.find? other).isSome :=
    (Host.callKnown called other).trans (sought.known other member)
  refine ⟨next, longer, ?_⟩
  rw [Allocator.Turned, sought.filled.next bounded] at turned
  rw [Allocator.nthAnswer]
  have few := sought.few
  have most := sought.most
  cases candidate : r.candidates[k]? with
  | none =>
    simp only [candidate] at turned
    obtain ⟨rfl, rfl⟩ := turned
    exact ⟨by simp only [request, called], rests, known, sought.filled.still candidate, by omega,
      most⟩
  | some a =>
    simp only [candidate] at turned
    obtain ⟨inside, rfl⟩ := List.getElem?_eq_some_iff.mp candidate
    obtain ⟨rfl, rfl⟩ := turned (fits _ (List.getElem_mem inside))
    have unowned := (Allocator.nextFreeVacant bounded
      ((sought.filled.next bounded).trans candidate)).2
    refine ⟨by simp only [request, called], rests, known, ?_, by simpa using few, ?_⟩
    · rw [tableOfReserve owner unowned]
      exact sought.filled.put candidate owner
    · rw [List.length_append, List.length_singleton]
      omega

theorem serveAllSought (accepted : Allocator.ofNetwork r.network = .ok r) {asks : List Ask}
    (seeks : ∀ ask ∈ asks, ask.Seeks b r) (attended : Attended there asks)
    (counts : b.Counts (min (k + asks.length) (r.candidates.length + 1))) :
    (b.serveAll first asks h).1.filterMap Reply.leased? =
      (List.range' k (asks.countP Ask.isAllocate)).map r.nthAnswer := by
  induction asks generalizing h log k there with
  | nil => rfl
  | cons ask rest ih =>
    rw [List.length_cons] at counts
    have few := sought.few
    have most := sought.most
    have later (other : Ask) (member : other ∈ rest) := seeks other (List.mem_cons_of_mem ask member)
    have seek := seeks ask List.mem_cons_self
    have timed := sought.timed ask.time
    rw [serveAllCons]
    obtain ⟨id, time, request⟩ := ask
    cases request with
    | enter settings =>
      exact ih (timed.entered id settings) later attended (countsLess counts (by omega))
    | allocate network owner =>
      obtain ⟨rfl, fits⟩ := seek
      obtain ⟨member, attended⟩ := attended
      obtain ⟨next, longer, went, after⟩ :=
        allocateSought unasked bounded timed (countsLess counts (by omega)) member owner fits
      have tail := ih after later attended (countsLess counts (by omega))
      simp only [Backing.serve, accepted, went]
      rw [List.countP_cons_of_pos rfl, List.range'_succ, List.map_cons, ← tail]
      rfl
    | release network owner => exact seek.elim

end Seeking

/-- From an empty store the answers are the same for every order of the requests: one after the
other the addresses of the range but for the gateway, from the lowest up, and from then on that
the pool is exhausted. -/
theorem capacityExact {first root : String} {b : Backing} {settings : StoreSettings} {n : Network}
    {r : Allocator} (opened : b.Opens root first settings) (accepted : Allocator.ofNetwork n = .ok r)
    (unasked : n.requested = none) (less : ¬ (r.range.start.isZero ∧ r.range.stop.isZero))
    (asks : List Ask) (seeks : ∀ ask ∈ asks, ask.Seeks b r) (attended : Attended [first] asks)
    (counts : b.Counts (min asks.length (r.candidates.length + 1))) :
    r.candidates.Pairwise (· < ·) ∧
    (∀ a, a ∈ r.candidates ↔ r.range.contains a = true ∧ a ≠ r.gateway) ∧
    (b.serveAll first asks (b.start root first settings)).1.filterMap Reply.leased? =
      (List.range (asks.countP Ask.isAllocate)).map r.nthAnswer := by
  obtain ⟨rfl, range⟩ := Allocator.networkOf accepted
  have bounded : r.range.Bounded := ⟨Network.rangeFamily range, less⟩
  refine ⟨Allocator.candidatesAscending bounded, fun a => Allocator.memCandidates bounded, ?_⟩
  have rests := Rests.start opened
  have sought : Sought first b r 0 [first] (b.start root first settings) [] :=
    ⟨rests, by simp [rests.lists.1], Allocator.filledEmpty r, Nat.le_refl 0, Nat.zero_le _⟩
  rw [List.range_eq_range']
  exact serveAllSought unasked bounded sought accepted seeks attended (by rwa [Nat.zero_add])

def narrow : Allocator where
  network := ⟨"net", .around (.wrap .v4 0x0A000000) 30, none, none, none, none, []⟩
  range := ⟨.wrap .v4 0x0A000001, .wrap .v4 0x0A000003⟩

def contest : List Ask :=
  [⟨"b", 1, .enter {}⟩, ⟨"b", 2, .allocate narrow.network "pod"⟩,
    ⟨"a", 3, .allocate narrow.network "pod"⟩]

theorem contestExact :
    ((Backing.disk "net").Opens "/data" "a" {} ∧ Allocator.ofNetwork narrow.network = .ok narrow ∧
      narrow.network.requested = none ∧
      ¬ (narrow.range.start.isZero ∧ narrow.range.stop.isZero) ∧
      (∀ ask ∈ contest, ask.Seeks (.disk "net") narrow) ∧ Attended ["a"] contest ∧
      (Backing.disk "net").Counts (min contest.length (narrow.candidates.length + 1))) ∧
    ((Backing.disk "net").serveAll "a" contest
        ((Backing.disk "net").start "/data" "a" {})).1.filterMap Reply.leased? =
      [.ok (narrow.lease (.wrap .v4 0x0A000002)), .error (.exhausted "net")] := by
  have opens : (Backing.disk "net").Opens "/data" "a" {} := rfl
  have accepted : Allocator.ofNetwork narrow.network = .ok narrow := rfl
  have candidates : narrow.candidates = [.wrap .v4 0x0A000002] := by decide
  have takes : ∀ a ∈ narrow.candidates, (Backing.disk "net").takes (.reserve a "pod") := by
    intro a member
    rw [candidates, List.mem_singleton] at member
    subst member
    change Operation.Fits _
    decide
  have seeks : ∀ ask ∈ contest, ask.Seeks (.disk "net") narrow := by
    intro ask member
    simp only [contest, List.mem_cons, List.not_mem_nil, or_false] at member
    rcases member with rfl | rfl | rfl
    · trivial
    · exact ⟨rfl, takes⟩
    · exact ⟨rfl, takes⟩
  have attended : Attended ["a"] contest := ⟨by decide, by decide, trivial⟩
  have counts : (Backing.disk "net").Counts (min contest.length (narrow.candidates.length + 1)) := by
    rw [candidates]
    change 2 < space 8
    decide
  have less : ¬ (narrow.range.start.isZero ∧ narrow.range.stop.isZero) := by decide
  have answers := (capacityExact opens accepted rfl less contest seeks attended counts).2.2
  have two : (List.range (contest.countP Ask.isAllocate)).map narrow.nthAnswer =
      [.ok (narrow.lease (.wrap .v4 0x0A000002)), .error (.exhausted "net")] := by
    have both : contest.countP Ask.isAllocate = 2 := rfl
    rw [both]
    change [narrow.nthAnswer 0, narrow.nthAnswer 1] = _
    rw [Allocator.nthAnswer, Allocator.nthAnswer, candidates]
    rfl
  exact ⟨⟨opens, accepted, rfl, less, seeks, attended, counts⟩, answers.trans two⟩

end Session
end AddressPool
