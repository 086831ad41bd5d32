import AddressPool.Bytes.Checksum
import AddressPool.Journal.Payload

/-! Journal entries. A header of twenty bytes gives the sequence number, the payload's
length, a checksum of these two and one of the payload. The header is checked before its
length is used, and no length past the limit is ever accepted. -/
namespace AddressPool.Journal
open Bytes

structure Entry where
  lsn : Nat
  operation : Operation
  time : Nat
  deriving DecidableEq, Repr

structure Header where
  lsn : Nat
  length : Nat
  checksum : UInt32
  deriving DecidableEq, Repr

def headerSize : Nat := 20

def payloadLimit : Nat := 1024 * 1024

def word (n : Nat) : UInt32 := UInt32.ofNat n

def headerFront (lsn length : Nat) : Bytes := littleEndian 8 lsn ++ littleEndian 4 length

def writeHeader (h : Header) : Bytes :=
  let front := headerFront h.lsn h.length
  front ++ littleEndian 4 (Checksum.crc32 front).toNat ++ littleEndian 4 h.checksum.toNat

def readHeader (bytes : Bytes) : Except HeaderFault Header :=
  let stored := word (ofLittleEndian ((bytes.drop 12).take 4))
  let computed := Checksum.crc32 (bytes.take 12)
  let lsn := ofLittleEndian (bytes.take 8)
  let length := ofLittleEndian ((bytes.drop 8).take 4)
  if stored = computed then
    if payloadLimit < length then .error (.tooLarge lsn length payloadLimit)
    else .ok ⟨lsn, length, word (ofLittleEndian ((bytes.drop 16).take 4))⟩
  else .error (.checksum stored computed)

namespace Entry

def payload (e : Entry) : Bytes := Body.write ⟨e.operation, e.time⟩

def write (e : Entry) : Except PayloadFault Bytes :=
  let payload := e.payload
  let length := payload.length
  if payloadLimit < length then .error (.tooLarge length payloadLimit)
  else .ok (writeHeader ⟨e.lsn, length, Checksum.crc32 payload⟩ ++ payload)

def ofParts (h : Header) (payload : Bytes) : Except Fault Entry :=
  let computed := Checksum.crc32 payload
  if computed = h.checksum then
    match Body.read payload with
    | .ok (body, _) => .ok ⟨h.lsn, body.operation, body.time⟩
    | .error fault => .error (.payload fault)
  else .error (.damage (.journal (.payloadChecksum h.lsn h.checksum computed)))

def read (bytes : Bytes) : Except Fault Entry :=
  match split headerSize bytes with
  | none => .error (.damage (.journal (.shortHeader headerSize bytes.length)))
  | some (front, rest) =>
      match readHeader front with
      | .error fault => .error (.damage (.journal (.header fault)))
      | .ok header =>
          match split header.length rest with
          | none => .error (.damage (.journal (.shortPayload header.length rest.length)))
          | some (payload, _) => ofParts header payload

end Entry
end AddressPool.Journal
