import AddressPool.Address

/-! The changes a reservation table goes through, as a journal records them. A reservation gives the
address to its owner, whoever had it; a release frees those of its addresses that the owner has. -/
namespace AddressPool

inductive Operation where
  | reserve (address : Address) (owner : String)
  | release (owner : String) (addresses : List Address)
  deriving DecidableEq, Repr

end AddressPool
