import AddressPool.Fault
import AddressPool.Operation

/-! The body of a journal entry: an operation and the time it was recorded. Numbers are
little-endian and of fixed width, a text or a list follows its length, and a kind comes
before what it decides. Reading takes the body off the front and ignores what follows. -/
namespace AddressPool.Journal
open Bytes

structure Body where
  operation : Operation
  time : Nat
  deriving DecidableEq, Repr

def writeText (text : String) : Bytes :=
  let encoded := Utf8.encode text
  littleEndian 8 encoded.length ++ encoded

def addressKind : Family → Nat
  | .v4 => 0
  | .v6 => 1

def writeAddress (a : Address) : Bytes := littleEndian 4 (addressKind a.family) ++ a.octets

def writeAddresses (addresses : List Address) : Bytes :=
  littleEndian 8 addresses.length ++ addresses.flatMap writeAddress

def writeOperation : Operation → Bytes
  | .reserve a owner => littleEndian 4 0 ++ writeAddress a ++ writeText owner
  | .release owner addresses => littleEndian 4 1 ++ writeText owner ++ writeAddresses addresses

def Body.write (b : Body) : Bytes := writeOperation b.operation ++ littleEndian 8 b.time

-- Each reader takes a value off the front and gives the rest with it.
def readNumber (width : Nat) (bytes : Bytes) : Except PayloadFault (Nat × Bytes) :=
  match split width bytes with
  | some (digits, rest) => .ok (ofLittleEndian digits, rest)
  | none => .error .endOfData

def readText (bytes : Bytes) : Except PayloadFault (String × Bytes) := do
  let (length, rest) ← readNumber 8 bytes
  match split length rest with
  | none => .error .textLength
  | some (encoded, rest) =>
      match Utf8.decode encoded with
      | .ok text => .ok (text, rest)
      | .error fault => .error (.text fault)

def readOctets (family : Family) (bytes : Bytes) : Except PayloadFault (Address × Bytes) :=
  match split family.width bytes with
  | some (octets, rest) => .ok (.ofOctets family octets, rest)
  | none => .error .endOfData

def readAddress (bytes : Bytes) : Except PayloadFault (Address × Bytes) := do
  let (kind, rest) ← readNumber 4 bytes
  match kind with
  | 0 => readOctets .v4 rest
  | 1 => readOctets .v6 rest
  | kind => .error (.addressKind kind)

def readAddressesFrom (found : List Address) :
    (count : Nat) → Bytes → Except PayloadFault (List Address × Bytes)
  | 0, bytes => .ok (found.reverse, bytes)
  | count + 1, bytes =>
      match readAddress bytes with
      | .ok (a, rest) => readAddressesFrom (a :: found) count rest
      | .error fault => .error fault

def readAddresses (bytes : Bytes) : Except PayloadFault (List Address × Bytes) := do
  let (count, rest) ← readNumber 8 bytes
  readAddressesFrom [] count rest

def readOperation (bytes : Bytes) : Except PayloadFault (Operation × Bytes) := do
  let (kind, rest) ← readNumber 4 bytes
  match kind with
  | 0 =>
      let (a, rest) ← readAddress rest
      let (owner, rest) ← readText rest
      return (.reserve a owner, rest)
  | 1 =>
      let (owner, rest) ← readText rest
      let (addresses, rest) ← readAddresses rest
      return (.release owner addresses, rest)
  | kind => .error (.operationKind kind)

def Body.read (bytes : Bytes) : Except PayloadFault (Body × Bytes) := do
  let (operation, rest) ← readOperation bytes
  let (time, rest) ← readNumber 8 rest
  return (⟨operation, time⟩, rest)

end AddressPool.Journal
