import AddressPool.Proofs.Allocator.Request
import AddressPool.Proofs.Session.Refinement
import AddressPool.Proofs.Table.Ledger

/-! Requests for addresses and releases, made through any instances of a session in any
order, each with a configuration of its own. A request is one lock section. What was leased
and not released since is the reservation list, and no address is in it twice. -/
namespace AddressPool.Session
open Bytes

inductive Request where
  | enter (settings : StoreSettings)
  | allocate (network : Network) (owner : String)
  | release (network : Network) (owner : String)
  deriving DecidableEq

structure Ask where
  id : String
  time : Nat
  request : Request
  deriving DecidableEq

inductive Reply where
  | missing
  | entered (answer : Answer)
  | leased (result : Except Fault Lease)
  | released (result : Except Fault Unit)

namespace Ask

def lease? (ask : Ask) (reply : Reply) : Option (Address × String) :=
  match ask.request, reply with
  | .allocate _ owner, .leased (.ok lease) => some (lease.address, owner)
  | _, _ => none

def freed? (ask : Ask) (reply : Reply) : Option String :=
  match ask.request, reply with
  | .release _ owner, .released (.ok ()) => some owner
  | _, _ => none

def settle (ledger : Ledger) (ask : Ask) (reply : Reply) : Ledger :=
  ledger.filter (fun entry => ask.freed? reply != some entry.2) ++ (ask.lease? reply).toList

end Ask

def outstanding (ledger : Ledger) : List Ask → List Reply → Ledger
  | ask :: asks, reply :: replies => outstanding (ask.settle ledger reply) asks replies
  | _, _ => ledger

def request {α : Type} (id : String) (wrap : α → Reply)
    (run : {σ : Type} → [Store σ] → σ → α × σ) (h : Host) : Reply × Host :=
  match h.call id run with
  | some (result, h) => (wrap result, h)
  | none => (.missing, h)

def reservationsOf (h : Host) : Instance → Except Fault (List (Address × String))
  | .disk network store =>
      (Store.whileLocked (fun s : Disk => (s.reservations, s)) (h.volume.disk network store)).1
  | .memory table holding => .ok (Memory.mk holding (h.shared table)).reservations

def Lists (first : String) (h : Host) (listed : List (Address × String)) : Prop :=
  (h.find? first).isSome ∧ ∀ id i, h.find? id = some i → reservationsOf h i = .ok listed

theorem Remembers.lists {first : String} {h : Host} {p : Pool} (remembers : Remembers first h p) :
    Lists first h p.table.toList := by
  refine ⟨(remembers.known first).trans remembers.first, ?_⟩
  intro id i found
  have here := remembers.instances id
  rw [found] at here
  split at here
  · cases here
    simp only [reservationsOf, remembers.shared, Memory.reservations]
  · contradiction

namespace Backing

def serve (b : Backing) (first : String) (ask : Ask) (h : Host) : Reply × Host :=
  let h := b.setTime ask.time h
  match ask.request with
  | .enter settings =>
      let (answer, h) := b.enter first ask.id settings h
      (.entered answer, h)
  | .allocate network owner =>
      match Allocator.ofNetwork network with
      | .error fault => (.leased (.error fault), h)
      | .ok allocator => request ask.id .leased (allocator.allocate owner) h
  | .release network owner =>
      match Allocator.ofNetwork network with
      | .error fault => (.released (.error fault), h)
      | .ok allocator => request ask.id .released (allocator.release owner) h

def serveAll (b : Backing) (first : String) : List Ask → Host → List Reply × Host :=
  Host.each (b.serve first)

def Opens (b : Backing) (root first : String) (settings : StoreSettings) : Prop :=
  match b with
  | .disk network => ((Host.empty root).openDisk first network settings).1 = .ok ()
  | .memory => True

def takes (b : Backing) (operation : Operation) : Prop :=
  match b with
  | .disk _ => operation.Fits
  | .memory => True

/-- The numbers of journal entries are eight bytes long. -/
def Counts (b : Backing) (count : Nat) : Prop :=
  match b with
  | .disk _ => count < space 8
  | .memory => True

end Backing

inductive Rests (first : String) : Backing → Host → List Operation → Prop where
  | disk {network : String} {h : Host} {node : Nat} {p : Pool} {log : List Operation}
      (serves : Serves network h node p log 0) (obeys : (h.volume.folder network).Obeys)
      (idle : p.holding = none) (there : p.known first = true) (named : Named network) :
      Rests first (.disk network) h log
  | memory {h : Host} {p : Pool} {log : List Operation} (remembers : Remembers first h p)
      (idle : p.holding = none) (table : p.table = tableOf log) : Rests first .memory h log

namespace Rests

variable {first id : String} {b : Backing} {h : Host} {log : List Operation}

theorem start {root : String} {settings : StoreSettings} (opened : b.Opens root first settings) :
    Rests first b (b.start root first settings) [] := by
  cases b with
  | disk network =>
    have named := namedOpened opened
    obtain ⟨serves, obeys⟩ := startServes named
    exact .disk serves obeys rfl (by simp [Pool.start]) named
  | memory => exact .memory (.start root first settings) rfl rfl

theorem timed (rests : Rests first b h log) (time : Nat) :
    Rests first b (b.setTime time h) log := by
  cases rests with
  | disk serves obeys idle there named =>
    refine .disk (serves.timed time) ?_ idle there named
    rw [folderTimed]
    exact obeys.same rfl
  | memory remembers idle table => exact .memory remembers idle table

theorem called (rests : Rests first b h log) (counts : b.Counts (log.length + 1)) {i : Instance}
    (found : h.find? id = some i) {α : Type} (run : {σ : Type} → [Store σ] → σ → α × σ)
    (told : α → List Operation → Prop)
    (spec : ∀ {σ : Type} [Store σ] {free held : List Operation → σ → Prop}
      {room : List Operation → Prop}, Laws σ free held room b.takes → ∀ {s}, free log s → room log →
      ∃ answer longer t, run s = (answer, t) ∧ free longer t ∧ longer.length ≤ log.length + 1 ∧
        told answer longer) :
    ∃ answer longer next, h.call id run = some (answer, next) ∧ Rests first b next longer ∧
      longer.length ≤ log.length + 1 ∧ told answer longer := by
  cases rests with
  | @disk network h node p log serves obeys idle there named =>
    obtain ⟨store, _, rfl, _⟩ := serves.stores found
    obtain ⟨handle, free⟩ := serves.freeOf idle found
    obtain ⟨answer, longer, t, ran, ⟨after, obeyed, follows⟩, short, known⟩ :=
      spec (Disk.laws (h.volume.folder network) handle) ⟨free, obeys, .refl _⟩ counts
    refine ⟨answer, longer, h.movedDisk network id t, ?_, ?_, short, known⟩
    · rw [Host.callDisk found, ran]
    · have served : Serves network (h.movedDisk network id t) node
          { p with table := tableOf longer } longer 0 :=
        serves.moved found (.inl idle) follows (after.opened.trans free.opened.symm)
          (.inl ⟨idle, handle, after⟩) rfl rfl
      refine .disk served ?_ idle there named
      rw [Host.folderMoved]
      exact obeyed
  | @memory h p log remembers idle table =>
    have known : p.known id = true := by
      rw [← remembers.known, found]
      rfl
    obtain ⟨answer, longer, _, ran, rfl, short, said⟩ := spec Memory.laws rfl trivial
    refine ⟨answer, longer, h.movedMemory 0 id ⟨false, false, tableOf longer⟩, ?_, ?_, short, said⟩
    · rw [remembers.calledIdle idle known, table, ran]
    · exact .memory (remembers.movedIdle idle known (tableOf longer)) idle rfl

theorem entered (rests : Rests first b h log) (id : String) (settings : StoreSettings) :
    Rests first b (b.enter first id settings h).2 log ∧ ∀ other,
      ((b.enter first id settings h).2.find? other).isSome =
        (other == id || (h.find? other).isSome) := by
  cases rests with
  | @disk network h node p log serves obeys idle there named =>
    have outcome : StepOutcome network h node p log 0 none (p.enter id)
        ((Backing.disk network).enter first id settings h) := by
      cases known : p.known id with
      | false => exact enterMissing named first settings serves known obeys.halting
      | true =>
        obtain ⟨store, found⟩ := serves.found known
        exact enterFound named first settings serves found obeys.halting
    obtain ⟨after, went, served, obeyed, _⟩ := outcome.obeyed obeys (by simp)
    rw [went]
    refine ⟨.disk (by simpa using served) obeyed ?_ ?_ named, ?_⟩
    · simp [Pool.enter, Pool.leave, idle]
    · simp [Pool.enter, Pool.leave, idle, there]
    · intro other
      rw [served.known, serves.known]
      rfl
  | @memory h p log remembers idle table =>
    have after := (@Remembers.entered first id h p remembers settings).2
    refine ⟨.memory after ?_ ?_, ?_⟩
    · simp [Pool.enter, Pool.leave, idle]
    · simp [Pool.enter, Pool.leave, idle, table]
    · intro other
      rw [remembers.known, after.known]
      rfl

theorem lists (rests : Rests first b h log) : Lists first h (tableOf log).toList := by
  cases rests with
  | @disk network h node p log serves obeys idle there named =>
    refine ⟨(serves.known first).trans there, ?_⟩
    intro id i found
    obtain ⟨store, _, rfl, _⟩ := serves.stores found
    obtain ⟨handle, free⟩ := serves.freeOf idle found
    obtain ⟨t, taken, ⟨⟨locked, holds⟩, again⟩⟩ :=
      (Disk.laws (h.volume.folder network) handle).lock ⟨free, obeys, .refl _⟩
    obtain ⟨u, given, _⟩ :=
      (Disk.laws (h.volume.folder network) handle).unlock ⟨⟨locked, holds⟩, again⟩
    have read : t.reservations = .ok (tableOf log).toList := by
      simp only [Disk.reservations, holds.loaded, holds.ready.table]
      rfl
    simp only [reservationsOf, Store.whileLocked, taken, read, given]
  | memory remembers idle table =>
    rw [← table]
    exact remembers.lists

end Rests
section Replies

variable {ledger : Ledger} {ask : Ask} {reply : Reply}

theorem settleLeft (freed : ask.freed? reply = none) :
    ask.settle ledger reply = ledger ++ (ask.lease? reply).toList := by
  simp [Ask.settle, freed]

theorem settleFreed {owner : String} (freed : ask.freed? reply = some owner)
    (leased : ask.lease? reply = none) :
    ask.settle ledger reply = ledger.filter (·.2 != owner) := by
  simp [Ask.settle, freed, leased, bne, Bool.beq_comm]

theorem settleKept {entry : Address × String} (member : entry ∈ ledger)
    (kept : ask.freed? reply ≠ some entry.2) : entry ∈ ask.settle ledger reply := by
  simp [Ask.settle, member, kept]

theorem settleGiven {entry : Address × String} (leased : ask.lease? reply = some entry) :
    entry ∈ ask.settle ledger reply := by
  simp [Ask.settle, leased]

theorem outstandingKept {entry : Address × String} {asks : List Ask} {replies : List Reply}
    (member : entry ∈ ledger)
    (kept : ∀ pair ∈ asks.zip replies, pair.1.freed? pair.2 ≠ some entry.2) :
    entry ∈ outstanding ledger asks replies := by
  induction asks generalizing ledger replies with
  | nil => exact member
  | cons ask rest ih =>
    cases replies with
    | nil => exact member
    | cons reply others =>
      rw [List.zip_cons_cons] at kept
      apply ih
      · exact settleKept member (kept _ List.mem_cons_self)
      · intro pair later
        exact kept pair (List.mem_cons_of_mem _ later)

end Replies
section Ledgers

variable {first id : String} {b : Backing} {h : Host} {log : List Operation} {ledger : Ledger}

theorem countsLess {few many : Nat} (counts : b.Counts many) (less : few ≤ many) :
    b.Counts few := by
  cases b with
  | disk network => exact Nat.lt_of_le_of_lt less counts
  | memory => trivial

structure Served (b : Backing) (first : String) (log : List Operation) (ledger : Ledger)
    (ask : Ask) (reply : Reply) (h : Host) (longer : List Operation) : Prop where
  rests : Rests first b h longer
  short : longer.length ≤ log.length + 1
  same : (tableOf longer).Matches (ask.settle ledger reply)
  unowned : ∀ entry, ask.lease? reply = some entry → (tableOf log).owner? entry.1 = none

theorem Served.still {ask : Ask} {reply : Reply} (rests : Rests first b h log)
    (same : (tableOf log).Matches ledger) (freed : ask.freed? reply = none)
    (leased : ask.lease? reply = none) : Served b first log ledger ask reply h log where
  rests := rests
  short := Nat.le_succ _
  same := by
    rw [settleLeft freed, leased, Option.toList_none, List.append_nil]
    exact same
  unowned := by simp [leased]

theorem allocateServed (rests : Rests first b h log) (same : (tableOf log).Matches ledger)
    (counts : b.Counts (log.length + 1)) (id : String) (time : Nat) (network : Network)
    (owner : String) (r : Allocator) :
    ∃ reply next longer, request id .leased (r.allocate owner) h = (reply, next) ∧
      Served b first log ledger ⟨id, time, .allocate network owner⟩ reply next longer := by
  cases found : h.find? id with
  | none =>
    refine ⟨.missing, h, log, ?_, .still rests same rfl rfl⟩
    simp only [request, Host.callMissing found]
  | some i =>
    obtain ⟨answer, longer, next, called, after, short, leased⟩ :=
      rests.called counts found (r.allocate owner) (Leased log owner)
        fun laws _ idle roomy => Allocator.allocateSpec laws r owner idle roomy
    refine ⟨.leased answer, next, longer, ?_, ?_⟩
    · simp only [request, called]
    · cases answer with
      | error fault =>
        obtain rfl := leased
        exact .still after same rfl rfl
      | ok lease =>
        obtain ⟨unowned, rfl⟩ := leased
        refine ⟨after, short, ?_, ?_⟩
        · rw [tableOfReserve owner unowned, settleLeft rfl]
          exact Table.matchesPut same unowned owner
        · rintro entry given
          cases given
          exact unowned

theorem releaseServed (rests : Rests first b h log) (same : (tableOf log).Matches ledger)
    (counts : b.Counts (log.length + 1)) (id : String) (time : Nat) (network : Network)
    (owner : String) (r : Allocator) :
    ∃ reply next longer, request id .released (r.release owner) h = (reply, next) ∧
      Served b first log ledger ⟨id, time, .release network owner⟩ reply next longer := by
  cases found : h.find? id with
  | none =>
    refine ⟨.missing, h, log, ?_, .still rests same rfl rfl⟩
    simp only [request, Host.callMissing found]
  | some i =>
    obtain ⟨answer, longer, next, called, after, short, released⟩ :=
      rests.called counts found (r.release owner) (Released log owner)
        fun laws _ idle roomy => Allocator.releaseSpec laws r owner idle roomy
    refine ⟨.released answer, next, longer, ?_, ?_⟩
    · simp only [request, called]
    · cases answer with
      | error fault =>
        obtain rfl := released
        exact .still after same rfl rfl
      | ok done =>
        have freed : tableOf longer =
          (tableOf log).freeAll ((tableOf log).addressesOf owner) := released
        refine ⟨after, short, ?_, by rintro entry ⟨⟩⟩
        rw [freed, settleFreed rfl rfl]
        exact Table.matchesFree same (tableOfInverse log) owner

theorem serveServed (rests : Rests first b h log) (same : (tableOf log).Matches ledger)
    (counts : b.Counts (log.length + 1)) (ask : Ask) :
    ∃ reply next longer, b.serve first ask h = (reply, next) ∧
      Served b first log ledger ask reply next longer := by
  obtain ⟨id, time, request⟩ := ask
  have timed := rests.timed time
  cases request with
  | enter settings =>
    exact ⟨_, _, log, rfl, .still (timed.entered id settings).1 same rfl rfl⟩
  | allocate network owner =>
    simp only [Backing.serve]
    split
    · exact ⟨_, _, log, rfl, .still timed same rfl rfl⟩
    · next r accepted => exact allocateServed timed same counts id time network owner r
  | release network owner =>
    simp only [Backing.serve]
    split
    · exact ⟨_, _, log, rfl, .still timed same rfl rfl⟩
    · next r accepted => exact releaseServed timed same counts id time network owner r

theorem serveAllCons (b : Backing) (ask : Ask) (rest : List Ask) (h : Host) :
    b.serveAll first (ask :: rest) h =
      ((b.serve first ask h).1 :: (b.serveAll first rest (b.serve first ask h).2).1,
        (b.serveAll first rest (b.serve first ask h).2).2) := rfl

theorem serveAllServed (rests : Rests first b h log) (same : (tableOf log).Matches ledger)
    {asks : List Ask} (counts : b.Counts (log.length + asks.length)) :
    ∃ longer, Rests first b (b.serveAll first asks h).2 longer ∧
      longer.length ≤ log.length + asks.length ∧
      (tableOf longer).Matches (outstanding ledger asks (b.serveAll first asks h).1) := by
  induction asks generalizing h log ledger with
  | nil => exact ⟨log, rests, Nat.le_refl _, same⟩
  | cons ask rest ih =>
    -- The ledger grows with the replies, the operations with the table.
    rw [List.length_cons] at counts
    obtain ⟨reply, next, longer, went, served⟩ :=
      serveServed rests same (countsLess counts (by omega)) ask
    have short := served.short
    obtain ⟨last, after, bound, settled⟩ :=
      ih served.rests served.same (countsLess counts (by omega))
    rw [serveAllCons, went]
    exact ⟨last, after, by rw [List.length_cons]; omega, settled⟩

/-- At every moment the reservations are the leases not released since, each address leased
once. A lease is of an address that nobody owned right before, and it lasts until a release
for its owner succeeds. -/
theorem leasesExclusive {root : String} {settings : StoreSettings}
    (opened : b.Opens root first settings) (asks : List Ask) (counts : b.Counts asks.length) :
    (∃ listed, Lists first (b.serveAll first asks (b.start root first settings)).2 listed ∧
      (listed.map Prod.fst).Nodup ∧
      listed.Perm (outstanding [] asks (b.serveAll first asks (b.start root first settings)).1)) ∧
    ∀ front ask rest, asks = front ++ ask :: rest → ∀ before reply after entry,
      before = (b.serveAll first front (b.start root first settings)).2 →
      b.serve first ask before = (reply, after) → ask.lease? reply = some entry →
      (∃ listed, Lists first before listed ∧ ∀ owner, (entry.1, owner) ∉ listed) ∧
      ((∀ pair ∈ rest.zip (b.serveAll first rest after).1, pair.1.freed? pair.2 ≠ some entry.2) →
        ∃ listed, Lists first (b.serveAll first rest after).2 listed ∧ entry ∈ listed) := by
  have begun := Rests.start opened
  constructor
  · obtain ⟨log, rests, _, same⟩ := @serveAllServed first b _ [] [] begun Table.matchesEmpty
      asks (countsLess counts (by rw [List.length_nil]; omega))
    refine ⟨(tableOf log).toList, rests.lists, ?_, same.perm⟩
    exact (same.perm.map Prod.fst).nodup_iff.mpr same.distinct
  · rintro front ask rest rfl before reply after entry rfl went leased
    rw [List.length_append, List.length_cons] at counts
    obtain ⟨log, rests, short, same⟩ := @serveAllServed first b _ [] [] begun Table.matchesEmpty
      front (countsLess counts (by rw [List.length_nil]; omega))
    rw [List.length_nil, Nat.zero_add] at short
    obtain ⟨_, _, longer, again, served⟩ :=
      serveServed rests same (countsLess counts (by omega)) ask
    obtain ⟨rfl, rfl⟩ := Prod.mk.inj (went.symm.trans again)
    have unowned := served.unowned entry leased
    have grown := served.short
    refine ⟨⟨_, rests.lists, ?_⟩, ?_⟩
    · intro owner listed
      rw [Table.memToList, unowned] at listed
      contradiction
    · intro kept
      obtain ⟨last, ended, _, settled⟩ :=
        @serveAllServed first b _ _ _ served.rests served.same rest (countsLess counts (by omega))
      refine ⟨_, ended.lists, ?_⟩
      rw [settled.perm.mem_iff]
      exact outstandingKept (settleGiven leased) kept

def exchange : List Ask :=
  let network : Network :=
    ⟨"net", .around (.wrap .v4 0x0A000000) 29, none, none, none, none, []⟩
  [⟨"a", 1, .allocate network "pod"⟩, ⟨"b", 2, .enter {}⟩, ⟨"b", 3, .allocate network "other"⟩,
    ⟨"a", 4, .release network "pod"⟩]

theorem exchangeExclusive :
    let start := (Backing.disk "net").start "/data" "a" {}
    let served := (Backing.disk "net").serveAll "a" exchange start
    ((Backing.disk "net").Opens "/data" "a" {} ∧ (Backing.disk "net").Counts exchange.length) ∧
      ∃ listed, Lists "a" served.2 listed ∧ (listed.map Prod.fst).Nodup ∧
        listed.Perm (outstanding [] exchange served.1) := by
  have opens : (Backing.disk "net").Opens "/data" "a" {} := rfl
  have counts : (Backing.disk "net").Counts exchange.length := by
    change 4 < space 8
    decide
  exact ⟨⟨opens, counts⟩, (leasesExclusive opens exchange counts).1⟩

end Ledgers
end AddressPool.Session
