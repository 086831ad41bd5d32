import AddressPool.Store

/-! A store some of whose calls are made to fail. A failing unlock still unlocks, and what
the store itself reports then goes first; the other calls fail without reaching the
store. -/
namespace AddressPool

inductive StoreCall where
  | lock
  | unlock
  | reserve
  | releaseOwner
  | lastReserved
  deriving DecidableEq, Repr

def StoreCall.name : StoreCall → String
  | .lock => "lock"
  | .unlock => "unlock"
  | .reserve => LockedCall.reserve.name
  | .releaseOwner => LockedCall.releaseOwner.name
  | .lastReserved => LockedCall.lastReserved.name

structure Failing (σ : Type) where
  inner : σ
  calls : List StoreCall

namespace Failing

variable {σ : Type} {α : Type}

def instead (call : StoreCall) (run : σ → Except Fault α × σ) (s : Failing σ) :
    Except Fault α × Failing σ :=
  if call ∈ s.calls then (.error (.damage (.injected call.name)), s)
  else
    let (result, inner) := run s.inner
    (result, { s with inner })

def unlock [Store σ] (s : Failing σ) : Except Fault Unit × Failing σ :=
  match Store.unlock s.inner with
  | (.error fault, inner) => (.error fault, { s with inner })
  | (.ok (), inner) =>
      (if .unlock ∈ s.calls then .error (.damage (.injected StoreCall.unlock.name)) else .ok (),
        { s with inner })

instance [Store σ] : Store (Failing σ) where
  lock := instead .lock Store.lock
  unlock := unlock
  reserve owner a := instead .reserve (Store.reserve owner a)
  releaseOwner owner := instead .releaseOwner (Store.releaseOwner owner)
  lastReserved := instead .lastReserved Store.lastReserved
  close s :=
    let (result, inner) := Store.close s.inner
    (result, { s with inner })

end Failing
end AddressPool
