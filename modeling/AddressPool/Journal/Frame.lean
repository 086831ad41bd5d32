import AddressPool.Journal.Entry

/-! A journal read front to back. Each step finds a whole entry, a torn one, an entry
whose payload checksum fails, or a fault; the walk keeps the entries before the first
of the others. A file that ends inside an entry is torn, and so is one that only zeros
end, which a crash leaves when the file has grown before its data came. -/
namespace AddressPool.Journal
open Bytes

inductive Front where
  | nothing
  | entry (entry : Entry) (size : Nat) (rest : Bytes)
  | torn
  | badChecksum (size : Nat) (rest : Bytes)
  | refused (fault : Fault)

def front (offset : Nat) (bytes : Bytes) : Front :=
  match bytes with
  | [] => .nothing
  | _ :: _ =>
      match split headerSize bytes with
      | none => .torn
      | some (raw, rest) =>
          match readHeader raw with
          | .error fault =>
              if raw.all (· == 0) && rest.all (· == 0) then .torn
              else .refused (.damage (.journal (.headerAt offset fault)))
          | .ok header =>
              match split header.length rest with
              | none => .torn
              | some (payload, rest) =>
                  match Entry.ofParts header payload with
                  | .ok entry => .entry entry (headerSize + header.length) rest
                  | .error (.damage _) => .badChecksum (headerSize + header.length) rest
                  | .error fault => .refused fault

inductive Ending where
  | clean
  | torn (offset : Nat)
  | badChecksum (offset stop following : Nat)
  | refused (fault : Fault)
  deriving DecidableEq, Repr

structure Walk where
  entries : List (Entry × Nat)
  ending : Ending
  deriving DecidableEq, Repr

theorem frontShrinks {offset : Nat} {bytes : Bytes} {entry : Entry} {size : Nat} {rest : Bytes}
    (h : front offset bytes = .entry entry size rest) : rest.length < bytes.length := by
  unfold front at h
  split at h <;> try contradiction
  split at h <;> try contradiction
  rename_i raw behind cut
  split at h <;> try contradiction
  · split at h <;> contradiction
  split at h <;> try contradiction
  rename_i payload last cutPayload
  obtain ⟨whole, full⟩ := splitExact.mp cut
  obtain ⟨wholeBehind, _⟩ := splitExact.mp cutPayload
  have size := congrArg List.length whole
  have sizeBehind := congrArg List.length wholeBehind
  simp only [List.length_append, List.length_cons, headerSize] at size sizeBehind full
  split at h <;> try contradiction
  obtain ⟨_, _, rfl⟩ := Front.entry.inj h
  simp only [List.length_cons]
  omega

def walkFrom (offset : Nat) (bytes : Bytes) : Walk :=
  match _found : front offset bytes with
  | .nothing => ⟨[], .clean⟩
  | .entry entry size rest =>
      let walk := walkFrom (offset + size) rest
      { walk with entries := (entry, offset + size) :: walk.entries }
  | .torn => ⟨[], .torn offset⟩
  | .badChecksum size rest => ⟨[], .badChecksum offset (offset + size) rest.length⟩
  | .refused fault => ⟨[], .refused fault⟩
termination_by bytes.length
decreasing_by exact frontShrinks ‹_›

def walk (bytes : Bytes) : Walk := walkFrom 0 bytes

def Ending.fault? : Ending → Option Fault
  | .clean => none
  | .torn offset => some (.damage (.journal (.partialEntry offset)))
  | .badChecksum offset _ _ => some (.damage (.journal (.checksumAt offset)))
  | .refused fault => some fault

def readAll (bytes : Bytes) : List (Except Fault Entry) :=
  let walk := walk bytes
  walk.entries.map (fun found => .ok found.1) ++ (walk.ending.fault?.map .error).toList

end AddressPool.Journal
