import AddressPool.Fault

/-! What an allocator needs of a store: an exclusive lock, and reserving, releasing and
the marker while it is held. A call takes the state and gives its result with the next
state. `Store.whileLocked` gives the lock back on every way out.

Without the lock an unlock does nothing. An address that anybody owns is not reserved again, not
even for its own owner, and an owner whose addresses are released need not have any. -/
namespace AddressPool

class Store (σ : Type) where
  lock : σ → Except Fault Unit × σ
  unlock : σ → Except Fault Unit × σ
  reserve : (owner : String) → Address → σ → Except Fault Bool × σ
  releaseOwner : (owner : String) → σ → Except Fault Unit × σ
  lastReserved : σ → Except Fault (Option Address) × σ
  close : σ → Except Fault Unit × σ

namespace Store

variable {σ α : Type} [Store σ]

/-- Runs `body` between lock and unlock. A fault of the body wins over one of the
unlock; without a fault of its own the unlock's is the result. -/
def whileLocked (body : σ → Except Fault α × σ) (s : σ) : Except Fault α × σ :=
  match lock s with
  | (.error fault, s) => (.error fault, s)
  | (.ok (), s) =>
      match body s with
      | (.error fault, s) => (.error fault, (unlock s).2)
      | (.ok value, s) =>
          match unlock s with
          | (.error fault, s) => (.error fault, s)
          | (.ok (), s) => (.ok value, s)

def whileLockedQuietly (body : σ → Except Fault α × σ) (s : σ) : Except Fault α × σ :=
  match lock s with
  | (.error fault, s) => (.error fault, s)
  | (.ok (), s) =>
      match body s with
      | (result, s) => (result, (unlock s).2)

end Store
end AddressPool
