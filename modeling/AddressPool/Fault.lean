import AddressPool.Subnet.Text
import AddressPool.Text.Quoted
import AddressPool.Text.Utf8

/-! Everything that can go wrong, by cause, and the one wording of each cause. Faults
of the configuration, of the request and of the store are kept apart; only the last
speak of the medium rather than of what was asked. -/
namespace AddressPool

instance exceptDecidableEq {ε α : Type} [DecidableEq ε] [DecidableEq α] :
    DecidableEq (Except ε α)
  | .ok a, .ok b => decidable_of_iff (a = b) ⟨congrArg _, Except.ok.inj⟩
  | .error a, .error b => decidable_of_iff (a = b) ⟨congrArg _, Except.error.inj⟩
  | .ok _, .error _ => isFalse nofun
  | .error _, .ok _ => isFalse nofun

inductive OsFault where
  | notFound
  | alreadyExists
  | notDirectory
  | isDirectory
  | invalidArgument
  | noSpace
  | nameTooLong
  deriving DecidableEq, Repr

def OsFault.code : OsFault → Nat
  | .notFound => 2
  | .alreadyExists => 17
  | .notDirectory => 20
  | .isDirectory => 21
  | .invalidArgument => 22
  | .noSpace => 28
  | .nameTooLong => 36

def OsFault.name : OsFault → String
  | .notFound => "No such file or directory"
  | .alreadyExists => "File exists"
  | .notDirectory => "Not a directory"
  | .isDirectory => "Is a directory"
  | .invalidArgument => "Invalid argument"
  | .noSpace => "No space left on device"
  | .nameTooLong => "File name too long"

def OsFault.message (fault : OsFault) : String :=
  fault.name ++ " (os error " ++ toString fault.code ++ ")"

inductive SubnetFault where
  | missing
  | withoutLength (text : String)
  | badAddress (text : String)
  | badLength (text : String) (fault : Numeral.Fault)
  | tooLong (length : Nat) (address : Address)
  | maskWidth (address : Address) (width : Nat)
  deriving DecidableEq, Repr

def SubnetFault.message : SubnetFault → String
  | .missing => "missing field \"subnet\""
  | .withoutLength text => "missing prefix length in " ++ Quoted.quote text
  | .badAddress text => "bad address in " ++ Quoted.quote text ++ ": invalid IP address syntax"
  | .badLength text fault =>
      "bad prefix length in " ++ Quoted.quote text ++ ": " ++ fault.message
  | .tooLong length address =>
      "prefix length " ++ toString length ++ " too long for " ++ address.text
  | .maskWidth address width =>
      "address " ++ address.text ++ " is " ++ toString address.family.width ++
        " bytes but mask is " ++ toString width ++ " bytes"

inductive RangeFault where
  | outside (address : Address) (subnet : Subnet)
  | reversed (last first : Address)
  deriving DecidableEq, Repr

def RangeFault.message : RangeFault → String
  | .outside address subnet => address.text ++ " not in network " ++ subnet.text
  | .reversed last first => "range end " ++ last.text ++ " before range start " ++ first.text

inductive NetworkFault where
  | name (text : String)
  | gateway (address : Address) (subnet : Subnet)
  | routeGateway (text : String)
  deriving DecidableEq, Repr

def NetworkFault.message : NetworkFault → String
  | .name text => "invalid network name " ++ Quoted.quote text
  | .gateway address subnet => "gateway " ++ address.text ++ " not in network " ++ subnet.text
  | .routeGateway text =>
      "bad route gateway in " ++ Quoted.quote text ++ ": invalid IP address syntax"

inductive PayloadFault where
  | tooLarge (length limit : Nat)
  | endOfData
  | textLength
  | operationKind (kind : Nat)
  | addressKind (kind : Nat)
  | text (fault : Utf8.Fault)
  deriving DecidableEq, Repr

def PayloadFault.message : PayloadFault → String
  | .tooLarge length limit =>
      "journal payload too large: " ++ toString length ++ " bytes (max " ++ toString limit ++ ")"
  | .endOfData => "io error: unexpected end of file"
  | .textLength => "io error: "
  | .operationKind kind =>
      "invalid value: integer `" ++ toString kind ++ "`, expected variant index 0 <= i < 2"
  | .addressKind kind =>
      "invalid value: integer `" ++ toString kind ++ "`, expected `V4` or `V6`"
  | .text fault => "string is not valid utf8: " ++ fault.message

inductive HeaderFault where
  | checksum (stored computed : UInt32)
  | tooLarge (lsn length limit : Nat)
  deriving DecidableEq, Repr

def HeaderFault.message : HeaderFault → String
  | .checksum stored computed =>
      "journal header checksum mismatch: stored " ++ Hex.ofWord stored ++ ", computed " ++
        Hex.ofWord computed
  | .tooLarge lsn length limit =>
      "journal entry at lsn " ++ toString lsn ++ " claims " ++ toString length ++
        " bytes (max " ++ toString limit ++ ")"

inductive JournalFault where
  | header (fault : HeaderFault)
  | headerAt (offset : Nat) (fault : HeaderFault)
  | shortHeader (expected length : Nat)
  | shortPayload (expected length : Nat)
  | payloadChecksum (lsn : Nat) (stored computed : UInt32)
  | partialEntry (offset : Nat)
  | checksumAt (offset : Nat)
  | backwards (lsn last : Nat)
  | damaged (path : String) (offset following : Nat)
  deriving DecidableEq, Repr

inductive SnapshotFault where
  | short (length : Nat)
  | checksum (stored computed : UInt32)
  | magic (found : Bytes)
  | version (number : Nat)
  | withoutAddress
  | owner (fault : Utf8.Fault)
  | duplicate (address : Address)
  | trailing (count : Nat)
  | width (count : Nat)
  | truncated (needed left : Nat)
  deriving DecidableEq, Repr

def SnapshotFault.message : SnapshotFault → String
  | .short length => "snapshot too short: " ++ toString length ++ " bytes"
  | .checksum stored computed =>
      "snapshot checksum mismatch: stored " ++ Hex.ofWord stored ++ ", computed " ++
        Hex.ofWord computed
  | .magic found =>
      "invalid snapshot magic: [" ++
        ", ".intercalate (found.map fun b => toString b.toNat) ++ "]"
  | .version number => "unsupported snapshot version: " ++ toString number
  | .withoutAddress => "snapshot record without an address"
  | .owner fault => "snapshot owner is not UTF-8: " ++ fault.message
  | .duplicate address => "duplicate snapshot record for " ++ address.text
  | .trailing count => toString count ++ " trailing bytes in snapshot"
  | .width count => "snapshot address of invalid width " ++ toString count
  | .truncated needed left =>
      "snapshot truncated: need " ++ toString needed ++ " bytes, " ++ toString left ++ " left"

inductive Damage where
  | journal (fault : JournalFault)
  | snapshot (fault : SnapshotFault)
  | injected (call : String)
  deriving DecidableEq, Repr

inductive LockedCall where
  | reserve
  | releaseOwner
  | lastReserved
  | reservations
  | journalLength
  deriving DecidableEq, Repr

def LockedCall.name : LockedCall → String
  | .reserve => "reserve"
  | .releaseOwner => "release_by_id"
  | .lastReserved => "last_reserved_ip"
  | .reservations => "reservations"
  | .journalLength => "journal_len"

inductive Fault where
  | subnet (fault : SubnetFault)
  | range (fault : RangeFault)
  | network (fault : NetworkFault)
  | requestedGateway (gateway : Address)
  | requestedOutside (address : Address) (pool : Subnet)
  | unavailable (address : Address) (name : String)
  | exhausted (name : String)
  | endless (name : String)
  | os (fault : OsFault)
  | damage (found : Damage)
  | payload (fault : PayloadFault)
  | notLocked (call : LockedCall)
  | held
  | closed
  deriving DecidableEq, Repr

namespace Fault

def damageText (detail : String) : String := "store corruption detected: " ++ detail

end Fault

def JournalFault.message : JournalFault → String
  | .header fault => fault.message
  | .headerAt offset fault =>
      "damaged journal header at offset " ++ toString offset ++ ": " ++
        Fault.damageText fault.message
  | .shortHeader expected length =>
      "incomplete journal header: expected " ++ toString expected ++ " bytes, got " ++
        toString length
  | .shortPayload expected length =>
      "incomplete journal payload: expected " ++ toString expected ++ " bytes, got " ++
        toString length
  | .payloadChecksum lsn stored computed =>
      "journal checksum mismatch at lsn " ++ toString lsn ++ ": stored " ++ Hex.ofWord stored ++
        ", computed " ++ Hex.ofWord computed
  | .partialEntry offset => "partial journal entry at offset " ++ toString offset
  | .checksumAt offset => "journal checksum mismatch at offset " ++ toString offset
  | .backwards lsn last =>
      "journal LSN went backwards: " ++ toString lsn ++ " after " ++ toString last
  | .damaged path offset following =>
      "journal " ++ path ++ " damaged at offset " ++ toString offset ++ " with " ++
        toString following ++ " bytes following"

def Damage.message : Damage → String
  | .journal fault => fault.message
  | .snapshot fault => fault.message
  | .injected call => "injected " ++ call

namespace Fault

def message : Fault → String
  | .subnet fault => "invalid subnet: " ++ fault.message
  | .range fault => "invalid range: " ++ fault.message
  | .network fault => "configuration error: " ++ fault.message
  | .requestedGateway gateway => "requested IP must differ from gateway IP " ++ gateway.text
  | .requestedOutside address pool =>
      "requested IP " ++ address.text ++ " not in network " ++ pool.text
  | .unavailable address name =>
      "requested IP address " ++ address.text ++ " is not available in network: " ++ name
  | .exhausted name => "no IP addresses available in network: " ++ name
  | .endless name => "address search does not end in network: " ++ name
  | .os fault => "store IO error: " ++ fault.message
  | .damage found => damageText found.message
  | .payload fault => "serialization error: " ++ fault.message
  | .notLocked call => "store is not locked: " ++ call.name
  | .held => "store is locked by another instance"
  | .closed => "store is closed"

def isStoreFault : Fault → Bool
  | .os _ | .damage _ | .payload _ | .notLocked _ | .held | .closed => true
  | _ => false

def isConfigurationFault : Fault → Bool
  | .subnet _ | .range _ | .network _ => true
  | _ => false

end Fault
end AddressPool
