import AddressPool.Journal.Frame

/-! What a journal is worth after a crash: its entries in rising sequence and the length
that holds them. A last entry that is torn or fails its checksum is dropped; any other
damage is reported, and the journal left as it is. `dropped` counts such a last entry, and without
any entry `lastLsn` is zero. -/
namespace AddressPool.Journal

structure Recovery where
  entries : List Entry
  dropped : Nat
  lastLsn : Nat
  truncated : Bool
  validLength : Nat
  deriving DecidableEq, Repr

def backwards? (last : Nat) : List Entry → Option (Nat × Nat)
  | [] => none
  | e :: rest => if e.lsn ≤ last then some (e.lsn, last) else backwards? e.lsn rest

def lastLsn (entries : List Entry) : Nat := (entries.getLast?.map Entry.lsn).getD 0

def recover (path : String) (bytes : Bytes) : Except Fault Recovery :=
  let walk := walk bytes
  let entries := walk.entries.map Prod.fst
  let validLength := (walk.entries.getLast?.map Prod.snd).getD 0
  let dropping (dropped : Nat) : Recovery :=
    ⟨entries, dropped, lastLsn entries, validLength < bytes.length, validLength⟩
  match backwards? 0 entries with
  | some (lsn, last) => .error (.damage (.journal (.backwards lsn last)))
  | none =>
      match walk.ending with
      | .clean => .ok (dropping 0)
      | .torn _ => .ok (dropping 1)
      | .badChecksum offset _ following =>
          if 0 < following then .error (.damage (.journal (.damaged path offset following)))
          else .ok (dropping 1)
      | .refused fault => .error fault

end AddressPool.Journal
