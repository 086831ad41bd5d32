import AddressPool.Allocator
import AddressPool.Proofs.Store.Laws

/-! One request for an address, or one release. Under the lock a request looks around and makes at
most one reservation, of an address that nobody owned. Over a store that keeps the laws a lease is
that reservation, and a fault leaves the table as it was. -/
namespace AddressPool

namespace Allocator

section Once

variable {σ : Type} [Store σ] {s : σ} {t : Table}

structure Steady (s : σ) (t : Table) : Prop where
  marker : Store.lastReserved s = (.ok t.marker, s)
  owned : ∀ owner a, t.owner? a ≠ none → Store.reserve owner a s = (.ok false, s)
  free : ∀ owner a, t.owner? a = none → (Store.reserve owner a s).1 ≠ .ok false

inductive Once (s : σ) (t : Table) (owner : String) : Except Fault Address × σ → Prop where
  | none (fault : Fault) : Once s t owner (.error fault, s)
  | failed {a : Address} {fault : Fault} {u : σ} (unowned : t.owner? a = none)
      (reserved : Store.reserve owner a s = (.error fault, u)) : Once s t owner (.error fault, u)
  | reserved {a : Address} {u : σ} (unowned : t.owner? a = none)
      (reserved : Store.reserve owner a s = (.ok true, u)) : Once s t owner (.ok a, u)

variable (r : Allocator) (owner : String)

theorem walkOnce (steady : Steady s t) (stop : Address) (steps : Nat) (a : Address) :
    Once s t owner (r.walk owner stop steps a s) := by
  induction steps generalizing a with
  | zero => exact .none _
  | succ steps ih =>
    -- An address that is passed over leaves the store as it was.
    simp only [walk]
    split
    · exact .none _
    · split
      · by_cases unowned : t.owner? a = none
        · split
          · exact .failed unowned (by assumption)
          · exact .reserved unowned (by assumption)
          · next passed => exact absurd (congrArg Prod.fst passed) (steady.free owner a unowned)
        · simp only [steady.owned owner a unowned]
          exact ih (r.range.after a)
      · exact ih (r.range.after a)

theorem searchOnce (steady : Steady s t) : Once s t owner (r.search owner s) := by
  simp only [search]
  split
  · exact .none _
  · simp only [steady.marker]
    exact walkOnce r owner steady _ _ _

theorem takeOnce (steady : Steady s t) (requested : Address) :
    Once s t owner (r.take owner requested s) := by
  simp only [take]
  split
  · exact .none _
  · split
    · by_cases unowned : t.owner? requested = none
      · split
        · exact .failed unowned (by assumption)
        · exact .reserved unowned (by assumption)
        · next passed =>
          exact absurd (congrArg Prod.fst passed) (steady.free owner requested unowned)
      · simp only [steady.owned owner requested unowned]
        exact .none _
    · exact .none _

theorem pickOnce (steady : Steady s t) : Once s t owner (r.pick owner s) := by
  simp only [pick]
  split
  · exact takeOnce r owner steady _
  · exact searchOnce r owner steady

end Once
end Allocator

theorem Memory.steady (t : Table) : Allocator.Steady (Memory.mk true ⟨true, t⟩) t where
  marker := rfl
  owned owner a owned := by
    simp [Store.reserve, reserve, Table.tryReserveOwned owned, withTable]
  free owner a unowned := by
    simp [Store.reserve, reserve, Table.tryReserveFree unowned]

section Requests

variable {σ : Type} [Store σ] {free held : List Operation → σ → Prop}
variable {room : List Operation → Prop} {takes : Operation → Prop} {log : List Operation} {s : σ}

def Granted (state : List Operation → σ → Prop) (log : List Operation) (owner : String) :
    Except Fault Address × σ → Prop
  | (.ok a, t) => (tableOf log).owner? a = none ∧ state (log ++ [.reserve a owner]) t
  | (.error _, t) => state log t

def Leased (log : List Operation) (owner : String) (answer : Except Fault Lease)
    (longer : List Operation) : Prop :=
  match answer with
  | .ok lease => (tableOf log).owner? lease.address = none ∧
      longer = log ++ [.reserve lease.address owner]
  | .error _ => longer = log

def Released (log : List Operation) (owner : String) (answer : Except Fault Unit)
    (longer : List Operation) : Prop :=
  match answer with
  | .ok () => tableOf longer = (tableOf log).freeAll ((tableOf log).addressesOf owner)
  | .error _ => longer = log

namespace Allocator

variable (laws : Laws σ free held room takes) (r : Allocator) (owner : String)
include laws

omit r owner in
theorem steadyHeld (holds : held log s) (roomy : room log) : Steady s (tableOf log) where
  marker := laws.marker holds
  owned := laws.owned holds
  free owner a unowned := by
    rcases laws.reserve holds roomy owner a unowned with
      ⟨t, reserved, _⟩ | ⟨_, fault, t, failed, _⟩
    · simp [reserved]
    · simp [failed]

theorem pickGranted (holds : held log s) (roomy : room log) :
    Granted held log owner (r.pick owner s) := by
  have once := pickOnce r owner (steadyHeld laws holds roomy)
  generalize r.pick owner s = outcome at once
  cases once with
  | none fault => exact holds
  | failed unowned called =>
    rcases laws.reserve holds roomy owner _ unowned with
      ⟨t, reserved, _⟩ | ⟨_, fault, t, failed, after⟩
    · rw [reserved] at called
      cases called
    · rw [failed] at called
      cases called
      exact after
  | reserved unowned called =>
    rcases laws.reserve holds roomy owner _ unowned with
      ⟨t, reserved, after⟩ | ⟨_, fault, t, failed, _⟩
    · rw [reserved] at called
      cases called
      exact ⟨unowned, after⟩
    · rw [failed] at called
      cases called

theorem allocateSpec (idle : free log s) (roomy : room log) :
    ∃ answer longer t, r.allocate owner s = (answer, t) ∧ free longer t ∧
      longer.length ≤ log.length + 1 ∧ Leased log owner answer longer := by
  obtain ⟨locked, taken, holds⟩ := laws.lock idle
  have granted := pickGranted laws r owner holds roomy
  simp only [allocate, Store.whileLocked, taken]
  rcases picked : r.pick owner locked with ⟨fault | a, after⟩
  · rw [picked] at granted
    obtain ⟨t, given, idle⟩ := laws.unlock granted
    refine ⟨.error fault, log, t, ?_, idle, Nat.le_succ _, rfl⟩
    simp only [given]
    rfl
  · rw [picked] at granted
    obtain ⟨unowned, holds⟩ := granted
    obtain ⟨t, given, idle⟩ := laws.unlock holds
    refine ⟨.ok (r.lease a), _, t, ?_, idle, by simp, unowned, rfl⟩
    simp only [given]
    rfl

theorem releaseSpec (idle : free log s) (roomy : room log) :
    ∃ answer longer t, r.release owner s = (answer, t) ∧ free longer t ∧
      longer.length ≤ log.length + 1 ∧ Released log owner answer longer := by
  obtain ⟨locked, taken, holds⟩ := laws.lock idle
  simp only [release, Store.whileLocked, taken]
  rcases laws.release holds roomy owner with
    ⟨after, longer, released, holds, short, table⟩ | ⟨fault, after, failed, holds⟩
  · obtain ⟨t, given, idle⟩ := laws.unlock holds
    exact ⟨.ok (), longer, t, by simp only [released, given], idle, short, table⟩
  · obtain ⟨t, given, idle⟩ := laws.unlock holds
    exact ⟨.error fault, log, t, by simp only [failed, given], idle, Nat.le_succ _, rfl⟩

end Allocator
end Requests
end AddressPool
