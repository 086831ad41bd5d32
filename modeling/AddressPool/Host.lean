import AddressPool.Attachment
import AddressPool.Store.Memory

/-! Many store instances side by side: disk stores on the networks of one data folder,
and memory stores that share tables. Instances have names. A call is made on one of them
at a time; `waits` says whether it would have to wait for a lock. -/
namespace AddressPool

inductive Instance where
  | disk (network : String) (store : DiskStore)
  | memory (table : Nat) (holding : Bool)
  deriving DecidableEq

namespace Instance

def isLocked : Instance → Bool
  | .disk _ store => store.locked.isSome
  | .memory _ holding => holding

end Instance

structure Host where
  volume : Volume
  tables : List SharedTable
  instances : List (String × Instance)

namespace Host

def empty (root : String) : Host := ⟨.empty root, [], []⟩

def find? (h : Host) (id : String) : Option Instance := h.instances.lookup id

def put (h : Host) (id : String) (i : Instance) : Host :=
  { h with instances := (id, i) :: h.instances.filter (·.1 != id) }

def shared (h : Host) (table : Nat) : SharedTable := h.tables.getD table ⟨false, .empty⟩

def callOn {α : Type} (i : Instance)
    (call : {σ : Type} → [Store σ] → σ → α × σ) (h : Host) : α × Instance × Host :=
  match i with
  | .disk network store =>
      let (result, disk) := call (h.volume.disk network store)
      (result, .disk network disk.store,
        { h with volume := h.volume.setFolder network disk.folder })
  | .memory table holding =>
      let (result, memory) := call (Memory.mk holding (h.shared table))
      (result, .memory table memory.holding, { h with tables := h.tables.set table memory.shared })

def call {α : Type} (id : String) (run : {σ : Type} → [Store σ] → σ → α × σ) (h : Host) :
    Option (α × Host) :=
  (h.find? id).map fun i =>
    let (result, i, h) := h.callOn i run
    (result, h.put id i)

def isDiskLocked (h : Host) : Bool :=
  h.instances.any fun
    | (_, .disk _ store) => store.locked.isSome
    | _ => false

def waits (h : Host) (id : String) : Bool :=
  match h.find? id with
  | none => false
  | some (.disk network store) => store.locked.isNone && h.volume.isHeld network
  | some (.memory table holding) => !holding && (h.shared table).held

def drop (id : String) (h : Host) : Bool × Host :=
  match h.find? id with
  | none => (false, h)
  | some i =>
      let (_, _, h) := h.callOn i Store.close
      (true, { h with instances := h.instances.filter (·.1 != id) })

def newTable (h : Host) : Nat × Host :=
  (h.tables.length, { h with tables := h.tables ++ [⟨false, .empty⟩] })

def openMemory (id : String) (h : Host) : Host :=
  let (table, h) := (h.drop id).2.newTable
  h.put id (.memory table false)

def clone (id source : String) (h : Host) : Host :=
  match h.find? source with
  | some (.memory table _) => (h.drop id).2.put id (.memory table false)
  | _ => h

def openDisk (id network : String) (settings : StoreSettings) (h : Host) :
    Except Fault Unit × Host :=
  let h := (h.drop id).2
  match h.volume.openStore settings network with
  | (.error fault, volume) => (.error fault, { h with volume })
  | (.ok store, volume) => (.ok (), { h with volume }.put id (.disk network store))

def edit (network : String) (change : Folder → Folder) (h : Host) : Host :=
  { h with volume := h.volume.setFolder network (change (h.volume.folder network)) }

def table? (h : Host) : Instance → Option Table
  | .disk _ store => store.locked.map LockedState.table
  | .memory table _ => some (h.shared table).table

def each {σ α β : Type} (run : α → σ → β × σ) : List α → σ → List β × σ
  | [], s => ([], s)
  | a :: rest, s =>
      let (result, s) := run a s
      let (results, s) := each run rest s
      (result :: results, s)

def allocateAll {σ : Type} [Store σ] (network : Network) (owners : List String) (s : σ) :
    List (Except Fault Lease) × σ :=
  match Allocator.ofNetwork network with
  | .error fault => ([.error fault], s)
  | .ok allocator => each allocator.allocate owners s

def workerOwners (worker count : Nat) : List String :=
  (List.range count).map fun n => "t" ++ toString worker ++ "-" ++ toString n

def raceDisk (network : Network) (settings : StoreSettings) (count worker : Nat) (v : Volume) :
    List (Except Fault Lease) × Volume :=
  match v.openStore settings network.name with
  | (.error fault, v) => ([.error fault], v)
  | (.ok store, v) =>
      let (results, disk) := allocateAll network (workerOwners worker count)
        (v.disk network.name store)
      (results, v.setFolder network.name disk.close.2.folder)

def raceMemory (network : Network) (count worker : Nat) (shared : SharedTable) :
    List (Except Fault Lease) × SharedTable :=
  let (results, memory) := allocateAll network (workerOwners worker count) (Memory.mk false shared)
  (results, memory.shared)

def race (network : Network) (settings : StoreSettings) (workers count : Nat) (onDisk : Bool)
    (h : Host) : List (Except Fault Lease) × Host :=
  if onDisk then
    let (results, volume) := each (raceDisk network settings count) (List.range workers) h.volume
    (results.flatten, { h with volume })
  else
    let (results, _) := each (raceMemory network count) (List.range workers) ⟨false, .empty⟩
    (results.flatten, h)

end Host
end AddressPool
