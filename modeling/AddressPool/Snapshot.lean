import AddressPool.Bytes.Checksum
import AddressPool.Medium
import AddressPool.Table

/-! Snapshots: a whole table with the journal sequence number it covers, in one file.
After the magic, the version and two numbers come the records in address order, then
the marker and a checksum of everything before it. Reading accepts the records in any
order. -/
namespace AddressPool
open Bytes

structure Snapshot where
  table : Table
  lastLsn : Nat
  deriving DecidableEq

namespace Snapshot

def empty : Snapshot := ⟨.empty, 0⟩

def magic : Bytes := [72, 76, 73, 80]

def version : Nat := 1

def headerSize : Nat := 22

def footerSize : Nat := 4

def writeAddress : Option Address → Bytes
  | none => [0]
  | some a => UInt8.ofNat a.family.width :: a.octets

def writeRecord (record : Address × String) : Bytes :=
  let owner := Utf8.encode record.2
  writeAddress (some record.1) ++ littleEndian 4 owner.length ++ owner

def writeBody (s : Snapshot) : Bytes :=
  magic ++ littleEndian 2 version ++ littleEndian 8 s.table.size ++ littleEndian 8 s.lastLsn ++
    s.table.toList.flatMap writeRecord ++ writeAddress s.table.marker

def write (s : Snapshot) : Bytes :=
  let body := s.writeBody
  body ++ littleEndian footerSize (Checksum.crc32 body).toNat

def need (count : Nat) (bytes : Bytes) : Except SnapshotFault (Bytes × Bytes) :=
  match split count bytes with
  | some parts => .ok parts
  | none => .error (.truncated count bytes.length)

def readAddress (bytes : Bytes) : Except SnapshotFault (Option Address × Bytes) := do
  let (width, rest) ← need 1 bytes
  match ofLittleEndian width with
  | 0 => return (none, rest)
  | width =>
      let (octets, rest) ← need width rest
      match Address.ofOctets? octets with
      | some a => return (some a, rest)
      | none => .error (.width width)

def readRecord (bytes : Bytes) : Except SnapshotFault ((Address × String) × Bytes) := do
  let (found, rest) ← readAddress bytes
  match found with
  | none => .error .withoutAddress
  | some a =>
      let (length, rest) ← need 4 rest
      let (encoded, rest) ← need (ofLittleEndian length) rest
      match Utf8.decode encoded with
      | .ok owner => return ((a, owner), rest)
      | .error fault => .error (.owner fault)

def readRecords : (count : Nat) → Table → Bytes → Except SnapshotFault (Table × Bytes)
  | 0, table, bytes => .ok (table, bytes)
  | count + 1, table, bytes =>
      match readRecord bytes with
      | .error fault => .error fault
      | .ok ((a, owner), rest) =>
          match table.tryReserve owner a with
          | (true, table) => readRecords count table rest
          | (false, _) => .error (.duplicate a)

def readBody (bytes : Bytes) : Except SnapshotFault Snapshot :=
  let found := bytes.take 4
  let number := ofLittleEndian ((bytes.drop 4).take 2)
  let count := ofLittleEndian ((bytes.drop 6).take 8)
  let lastLsn := ofLittleEndian ((bytes.drop 14).take 8)
  if found ≠ magic then .error (.magic found)
  else if number ≠ version then .error (.version number)
  else do
    let (table, rest) ← readRecords count .empty (bytes.drop headerSize)
    let (marker, rest) ← readAddress rest
    if rest = [] then return ⟨table.setMarker marker, lastLsn⟩ else .error (.trailing rest.length)

def read (bytes : Bytes) : Except SnapshotFault Snapshot :=
  let length := bytes.length
  if length < headerSize + footerSize then .error (.short length)
  else
    let body := bytes.take (length - footerSize)
    let stored := UInt32.ofNat (ofLittleEndian (bytes.drop (length - footerSize)))
    let computed := Checksum.crc32 body
    if stored ≠ computed then .error (.checksum stored computed) else readBody body

def load (d : Folder) : Except Fault (Option Snapshot) :=
  match d.read .snapshot with
  | .error fault => .error (.os fault)
  | .ok none => .ok none
  | .ok (some bytes) =>
      match read bytes with
      | .ok snapshot => .ok (some snapshot)
      | .error fault => .error (.damage (.snapshot fault))

def save (s : Snapshot) (d : Folder) : Except Fault Nat × Folder :=
  let bytes := s.write
  match d.createTemporary with
  | (.error fault, d) => (.error (.os fault), d)
  | (.ok node, d) =>
  match d.append .writeTemporary node bytes with
  | (.error fault, d) => (.error (.os fault), d)
  | (.ok (), d) =>
  match d.sync .syncTemporary node with
  | (.error fault, d) => (.error (.os fault), d)
  | (.ok (), d) =>
  match d.replaceSnapshot with
  | (.error fault, d) => (.error (.os fault), d)
  | (.ok (), d) =>
  match d.syncFolder with
  | (.error fault, d) => (.error (.os fault), d)
  | (.ok (), d) => (.ok bytes.length, d)

end Snapshot
end AddressPool
