import AddressPool.Operation
import Std.Data.ExtTreeMap
import Std.Data.ExtTreeSet

/-! The reservations of one network: who owns which address, the same read the other
way, and the address reserved last. An owner without addresses has no entry, so equal
contents make equal tables. -/
namespace AddressPool

structure Table where
  owners : Std.ExtTreeMap Address String
  holdings : Std.ExtTreeMap String (Std.ExtTreeSet Address)
  marker : Option Address
  deriving DecidableEq

namespace Table

def empty : Table := ⟨∅, ∅, none⟩

instance : Inhabited Table := ⟨empty⟩

def owner? (t : Table) (a : Address) : Option String := t.owners[a]?

def held (t : Table) (owner : String) : Std.ExtTreeSet Address := t.holdings.getD owner ∅

def addressesOf (t : Table) (owner : String) : List Address := (t.held owner).toList

def toList (t : Table) : List (Address × String) := t.owners.toList

def size (t : Table) : Nat := t.owners.size

def put (t : Table) (a : Address) (owner : String) : Table where
  owners := t.owners.insert a owner
  holdings := t.holdings.insert owner ((t.held owner).insert a)
  marker := some a

def tryReserve (t : Table) (owner : String) (a : Address) : Bool × Table :=
  match t.owner? a with
  | some _ => (false, t)
  | none => (true, t.put a owner)

def free (t : Table) (a : Address) : Table :=
  match t.owner? a with
  | none => t
  | some owner =>
      let left := (t.held owner).erase a
      { t with
        owners := t.owners.erase a
        holdings := if left.isEmpty then t.holdings.erase owner else t.holdings.insert owner left }

def release (t : Table) (a : Address) : Option String × Table := (t.owner? a, t.free a)

def freeAll (t : Table) (addresses : List Address) : Table := addresses.foldl free t

def freeFrom (t : Table) (owner : String) (a : Address) : Table :=
  if t.owner? a = some owner then t.free a else t

def apply (t : Table) : Operation → Table
  | .reserve a owner => (t.free a).put a owner
  | .release owner addresses => addresses.foldl (fun t a => t.freeFrom owner a) t

def applyAll (t : Table) (operations : List Operation) : Table := operations.foldl apply t

def setMarker (t : Table) (marker : Option Address) : Table := { t with marker }

def clear (_ : Table) : Table := empty

end Table
end AddressPool
