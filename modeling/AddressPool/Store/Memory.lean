import AddressPool.Store
import AddressPool.Table

/-! A store without files. Any number of instances share one table and the flag that
says whether one of them holds the lock. -/
namespace AddressPool

structure SharedTable where
  held : Bool
  table : Table
  deriving DecidableEq

structure Memory where
  holding : Bool
  shared : SharedTable
  deriving DecidableEq

namespace Memory

def lock (s : Memory) : Except Fault Unit × Memory :=
  if s.holding then (.ok (), s)
  else if s.shared.held then (.error .held, s)
  else (.ok (), ⟨true, { s.shared with held := true }⟩)

def unlock (s : Memory) : Except Fault Unit × Memory :=
  if s.holding then (.ok (), ⟨false, { s.shared with held := false }⟩) else (.ok (), s)

def withTable (s : Memory) (table : Table) : Memory :=
  { s with shared := { s.shared with table } }

def reserve (owner : String) (a : Address) (s : Memory) : Except Fault Bool × Memory :=
  if s.holding then
    let (free, table) := s.shared.table.tryReserve owner a
    (.ok free, s.withTable table)
  else (.error (.notLocked .reserve), s)

def releaseOwner (owner : String) (s : Memory) : Except Fault Unit × Memory :=
  if s.holding then
    let table := s.shared.table
    (.ok (), s.withTable (table.freeAll (table.addressesOf owner)))
  else (.error (.notLocked .releaseOwner), s)

def lastReserved (s : Memory) : Except Fault (Option Address) × Memory :=
  if s.holding then (.ok s.shared.table.marker, s)
  else (.error (.notLocked .lastReserved), s)

instance : Store Memory := ⟨lock, unlock, reserve, releaseOwner, lastReserved, unlock⟩

def reservations (s : Memory) : List (Address × String) := s.shared.table.toList

end Memory
end AddressPool
