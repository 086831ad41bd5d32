import AddressPool.Fault

/-! The folder that holds one network's files, as the operating system shows it. A file
has its written bytes and the length covered by the last successful sync; a name can be
bound to another file while a handle still holds the old one. Each call that changes
something is numbered and first asks `fate`, which by default obeys; any run of failures
is a choice of it, and a crash is a fate that refuses every call from some number on.

Every file that a name or a handle has referred to stays among the nodes, and the clock is the
time of day in milliseconds. The two devices always read as empty: the full one takes no write,
the null one loses it. -/
namespace AddressPool

inductive FileName where
  | lock
  | journal
  | snapshot
  | temporary
  deriving DecidableEq, Repr

def FileName.text : FileName → String
  | .lock => "lock"
  | .journal => "reservations.wal"
  | .snapshot => "reservations.snap"
  | .temporary => "reservations.snap.tmp"

def FileName.path (folder : String) (name : FileName) : String := folder ++ "/" ++ name.text

inductive Content where
  | file (bytes : Bytes) (synced : Nat)
  | folder
  | fullDevice
  | nullDevice
  deriving DecidableEq, Repr

structure Node where
  content : Content
  holder : Option Nat
  deriving DecidableEq, Repr

inductive Call where
  | makeFolder
  | openLock
  | openJournal
  | appendEntry
  | syncEntries
  | rollBack
  | syncRollBack
  | repair
  | syncRepair
  | emptyJournal
  | syncEmptied
  | createTemporary
  | writeTemporary
  | syncTemporary
  | replaceSnapshot
  | syncFolder
  deriving DecidableEq, Repr

inductive Outcome where
  | done
  /-- A write keeps that many bytes; any other call changes nothing. -/
  | fails (fault : OsFault) (written : Nat)
  deriving DecidableEq, Repr

inductive Shape where
  | absent
  | plainFile
  | folder
  deriving DecidableEq, Repr

structure Folder where
  shape : Shape
  names : FileName → Option Nat
  nodes : List Node
  handles : Nat
  clock : Nat
  calls : Nat
  fate : Nat → Call → Outcome

namespace Folder

def absent : Folder := ⟨.absent, fun _ => none, [], 0, 0, 0, fun _ _ => .done⟩

instance : Inhabited Folder := ⟨absent⟩

def content? (d : Folder) (id : Nat) : Option Content := d.nodes[id]?.map Node.content

def setContent (d : Folder) (id : Nat) (content : Content) : Folder :=
  { d with nodes := d.nodes.modify id fun node => { node with content } }

def bind (d : Folder) (name : FileName) (id : Option Nat) : Folder :=
  { d with names := fun other => if other = name then id else d.names other }

def create (d : Folder) (name : FileName) (content : Content) : Nat × Folder :=
  let id := d.nodes.length
  let grown : Folder := { d with nodes := d.nodes ++ [⟨content, none⟩] }
  (id, grown.bind name (some id))

def find (d : Folder) (name : FileName) : Except OsFault (Option Nat) :=
  match d.shape with
  | .absent => .ok none
  | .plainFile => .error .notDirectory
  | .folder => .ok (d.names name)

def read (d : Folder) (name : FileName) : Except OsFault (Option Bytes) :=
  match d.find name with
  | .error fault => .error fault
  | .ok none => .ok none
  | .ok (some id) =>
      match d.content? id with
      | some (.file bytes _) => .ok (some bytes)
      | some .folder => .error .isDirectory
      | some .fullDevice | some .nullDevice => .ok (some [])
      | none => .ok none

def ask (d : Folder) (call : Call) : Outcome × Folder :=
  (d.fate d.calls call, { d with calls := d.calls + 1 })

def make (d : Folder) : Except OsFault Unit × Folder :=
  match d.ask .makeFolder with
  | (.fails fault _, d) => (.error fault, d)
  | (.done, d) =>
      match d.shape with
      | .absent => (.ok (), { d with shape := .folder })
      | .plainFile => (.error .alreadyExists, d)
      | .folder => (.ok (), d)

def openNode (d : Folder) (call : Call) (name : FileName) : Except OsFault Nat × Folder :=
  match d.ask call with
  | (.fails fault _, d) => (.error fault, d)
  | (.done, d) =>
      match d.shape with
      | .absent => (.error .notFound, d)
      | .plainFile => (.error .notDirectory, d)
      | .folder =>
          match d.names name with
          | none =>
              let (id, d) := d.create name (.file [] 0)
              (.ok id, d)
          | some id =>
              match d.content? id with
              | some .folder => (.error .isDirectory, d)
              | _ => (.ok id, d)

def lengthOf (d : Folder) (id : Nat) : Nat :=
  match d.content? id with
  | some (.file bytes _) => bytes.length
  | _ => 0

def append (d : Folder) (call : Call) (id : Nat) (more : Bytes) : Except OsFault Unit × Folder :=
  match d.ask call, d.content? id with
  | (.done, d), some (.file bytes synced) =>
      (.ok (), d.setContent id (.file (bytes ++ more) synced))
  | (.fails fault written, d), some (.file bytes synced) =>
      (.error fault, d.setContent id (.file (bytes ++ more.take written) synced))
  | (.fails fault _, d), _ => (.error fault, d)
  | (.done, d), some .nullDevice => (.ok (), d)
  | (.done, d), some .fullDevice => (.error .noSpace, d)
  | (.done, d), _ => (.error .isDirectory, d)

def sync (d : Folder) (call : Call) (id : Nat) : Except OsFault Unit × Folder :=
  match d.ask call, d.content? id with
  | (.fails fault _, d), _ => (.error fault, d)
  | (.done, d), some (.file bytes _) => (.ok (), d.setContent id (.file bytes bytes.length))
  | (.done, d), _ => (.error .invalidArgument, d)

def resize (bytes : Bytes) (length : Nat) : Bytes :=
  bytes.take length ++ List.replicate (length - bytes.length) 0

def setLength (d : Folder) (call : Call) (id : Nat) (length : Nat) :
    Except OsFault Unit × Folder :=
  match d.ask call, d.content? id with
  | (.fails fault _, d), _ => (.error fault, d)
  | (.done, d), some (.file bytes synced) =>
      (.ok (), d.setContent id (.file (resize bytes length) (min synced length)))
  | (.done, d), _ => (.error .invalidArgument, d)

def cutTo (d : Folder) (cut sync : Call) (id : Nat) (length : Nat) : Except OsFault Unit × Folder :=
  match d.setLength cut id length with
  | (.error fault, d) => (.error fault, d)
  | (.ok (), d) => d.sync sync id

def createTemporary (d : Folder) : Except OsFault Nat × Folder :=
  match d.openNode .createTemporary .temporary with
  | (.error fault, d) => (.error fault, d)
  | (.ok id, d) =>
      match d.content? id with
      | some (.file _ _) => (.ok id, d.setContent id (.file [] 0))
      | _ => (.ok id, d)

def replaceSnapshot (d : Folder) : Except OsFault Unit × Folder :=
  match d.ask .replaceSnapshot with
  | (.fails fault _, d) => (.error fault, d)
  | (.done, d) =>
      match d.find .temporary, d.find .snapshot with
      | .error fault, _ | _, .error fault => (.error fault, d)
      | .ok none, _ => (.error .notFound, d)
      | .ok (some id), .ok old =>
          if old.bind d.content? = some .folder then (.error .isDirectory, d)
          else (.ok (), (d.bind .snapshot (some id)).bind .temporary none)

def syncFolder (d : Folder) : Except OsFault Unit × Folder :=
  match d.ask .syncFolder with
  | (.fails fault _, d) => (.error fault, d)
  | (.done, d) => (.ok (), d)

structure LockHandle where
  node : Nat
  id : Nat
  deriving DecidableEq, Repr

def openLock (d : Folder) : Except OsFault LockHandle × Folder :=
  match d.openNode .openLock .lock with
  | (.error fault, d) => (.error fault, d)
  | (.ok node, d) => (.ok ⟨node, d.handles⟩, { d with handles := d.handles + 1 })

def holder? (d : Folder) (node : Nat) : Option Nat := d.nodes[node]?.bind Node.holder

def isDeviceHeld (d : Folder) (device : Content) : Bool :=
  d.nodes.any fun node => node.content == device && node.holder.isSome

def setHolder (d : Folder) (node : Nat) (holder : Option Nat) : Folder :=
  { d with nodes := d.nodes.modify node fun n => { n with holder } }

def takeLock (d : Folder) (h : LockHandle) : Bool × Folder :=
  match d.holder? h.node with
  | some other => (other == h.id, d)
  | none => (true, d.setHolder h.node (some h.id))

def dropLock (d : Folder) (h : LockHandle) : Folder :=
  if d.holder? h.node = some h.id then d.setHolder h.node none else d

end Folder
end AddressPool
