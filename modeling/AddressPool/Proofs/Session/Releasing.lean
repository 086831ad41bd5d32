import AddressPool.Proofs.Session.Crash

/-! Giving everything back that an owner has. One entry names all the addresses and so is longer
than the entry of any of the reservations; where it is too long to be journaled, the owner stays
with what was reserved. -/
namespace AddressPool
open Journal Bytes

def releaseSize (owner : String) (addresses : List Address) : Nat :=
  (Utf8.encode owner).length + (addresses.flatMap writeAddress).length + 28

theorem releaseFits (owner : String) (addresses : List Address) :
    (Operation.release owner addresses).Fits ↔ releaseSize owner addresses ≤ payloadLimit := by
  rw [Operation.Fits, writeReleaseLength]
  rfl

structure Table.Freed (before after : Table) (owner : String) : Prop where
  nothing : after.addressesOf owner = []
  owners : ∀ a, after.owner? a = if before.owner? a = some owner then none else before.owner? a
  marker : after.marker = before.marker

theorem Table.freedAll {t : Table} (indexes : t.Inverse) (owner : String) :
    Freed t (t.freeAll (t.addressesOf owner)) owner where
  nothing := by
    rw [List.eq_nil_iff_forall_not_mem]
    intro a member
    rw [memAddressesOf (inverseFreeAll indexes _), ownerFreeAll] at member
    split at member
    · contradiction
    · next other => exact other ((memAddressesOf indexes a owner).mpr member)
  owners a := by simp only [ownerFreeAll, memAddressesOf indexes]
  marker := markerFreeAll t _

namespace Disk

variable {s : Disk} {handle : Folder.LockHandle} {before : LockedState} {log : List Operation}
variable {covered : Nat}

def Releases (s : Disk) (before : Table) (owner : String) : Prop :=
  let size := releaseSize owner (before.addressesOf owner)
  ∃ result t next, s.releaseOwner owner = (result, t) ∧ t.store.locked = some next ∧
    if before.addressesOf owner = [] ∨ size ≤ payloadLimit then
      result = .ok () ∧ before.Freed next.table owner
    else result = .error (.payload (.tooLarge size payloadLimit)) ∧ next.table = before

theorem releaseHeld (holds : Holds s handle before log covered) (obeys : s.folder.Obeys)
    (few : log.length + 1 < space 8) (owner : String) : Releases s before.table owner := by
  have indexes : before.table.Inverse := by
    rw [holds.ready.table]
    exact Table.inverseApplyAll Table.inverseEmpty log
  have freed := Table.freedAll indexes owner
  rw [Releases]
  cases owned : before.table.addressesOf owner with
  | nil =>
    rw [owned] at freed
    exact ⟨.ok (), s, before, by simp only [releaseOwner, holds.loaded, owned], holds.loaded,
      by rw [if_pos (.inl rfl)]; exact ⟨rfl, freed⟩⟩
  | cons a rest =>
    let operation : Operation := .release owner (a :: rest)
    have applied := Table.applyRelease indexes owner
    rw [← applied, owned] at freed
    rw [owned] at applied
    have size : (writeOperation operation).length + 8 = releaseSize owner (a :: rest) := by
      rw [writeReleaseLength]
      rfl
    simp only [releaseOwner, holds.loaded, owned, ← applied, reduceCtorEq, false_or]
    rcases recordSpec holds obeys.halting few operation
        (congrArg (Table.apply · operation) holds.ready.table) with
      ⟨fits, next, t, recorded, after, _⟩ | ⟨large, next, t, refused, after, _⟩ |
        ⟨fault, t, _, broken⟩
    · have changed : next.table = before.table.apply operation := by
        rw [after.ready.table, Table.applyAllLast, holds.ready.table]
      refine ⟨_, t, next, recorded, after.loaded, ?_⟩
      rw [if_pos ((releaseFits owner (a :: rest)).mp fits), changed]
      exact ⟨rfl, freed⟩
    · refine ⟨_, t, next, refused, after.loaded, ?_⟩
      rw [if_neg (mt (releaseFits owner (a :: rest)).mpr large), size]
      exact ⟨rfl, after.ready.table.trans holds.ready.table.symm⟩
    · exact absurd broken.halted (obeys.same broken.follows.fate).notHalted

end Disk
namespace Session

variable {network first id : String} {h : Host} {node : Nat} {p : Pool} {log : List Operation}
variable {covered : Nat} {store : DiskStore} {before : LockedState}

theorem stepServes (named : Named network) (first : String)
    (serves : Serves network h node p log covered)
    (obeys : (h.volume.folder network).Obeys) (few : log.length + 1 < space 8) (step : Step) :
    ∃ next longer, Serves network ((Backing.disk network).step first step h).2 node next longer
        covered ∧
      (((Backing.disk network).step first step h).2.volume.folder network).Obeys ∧
      longer.length ≤ log.length + 1 := by
  have outcome := diskStep named first serves obeys.halting few step
  obtain ⟨_, fate, ⟨next, served⟩ | halted⟩ := outcome.recorded serves.lock
  · refine ⟨next, _, served, obeys.same fate, ?_⟩
    rw [List.length_append]
    exact Nat.add_le_add_left (journaledOne network h _ _) log.length
  · exact absurd halted (obeys.same fate).notHalted

theorem runServes (named : Named network) (first : String)
    (serves : Serves network h node p log covered) (obeys : (h.volume.folder network).Obeys)
    (steps : List Step) (few : log.length + steps.length < space 8) :
    ∃ next longer, Serves network ((Backing.disk network).run first steps h).2 node next longer
        covered ∧
      (((Backing.disk network).run first steps h).2.volume.folder network).Obeys ∧
      longer.length ≤ log.length + steps.length := by
  induction steps generalizing h p log with
  | nil => exact ⟨p, log, serves, obeys, Nat.le_refl _⟩
  | cons step rest ih =>
    -- A refused change leaves the log as it is, so a step adds one operation at most.
    rw [List.length_cons] at few
    obtain ⟨next, longer, served, obeyed, short⟩ :=
      stepServes named first serves obeys (by omega) step
    obtain ⟨last, whole, ended, still, all⟩ := ih served obeyed (by omega)
    rw [runCons]
    refine ⟨last, whole, ended, still, ?_⟩
    rw [List.length_cons]
    omega

/-- After any steps of a session, an instance that has the lock can release what an owner has,
unless the one entry for all of it would be too long: then it fails and nothing changes. -/
theorem releasesWithinLimit {root : String} {settings : StoreSettings}
    (opened : ((Host.empty root).openDisk first network settings).1 = .ok ()) (steps : List Step)
    (few : steps.length + 1 < space 8) {h : Host}
    (reached : ((Backing.disk network).run first steps
      ((Backing.disk network).start root first settings)).2 = h)
    (found : h.find? id = some (.disk network store)) (held : store.locked = some before)
    (owner : String) :
    (h.volume.disk network store).Releases before.table owner := by
  have named := namedOpened opened
  obtain ⟨serves, obeys⟩ := @startServes root network first settings named
  obtain ⟨p, log, served, obeyed, short⟩ :=
    runServes named first serves obeys steps (by rw [List.length_nil]; omega)
  rw [reached] at served obeyed
  have holding : p.holding = some id := by
    apply Classical.byContradiction
    intro idle
    rw [served.unlocked found idle] at held
    contradiction
  obtain ⟨handle, locked, holds⟩ := served.holdsOf holding found
  obtain rfl : locked = before := Option.some.inj (holds.loaded.symm.trans held)
  rw [List.length_nil] at short
  exact Disk.releaseHeld holds obeyed (by omega) owner

def longestOwner : String := String.ofList (List.replicate (payloadLimit - 28) 'a')

def reserveLongest : Step := ⟨"a", 2, .reserve longestOwner (.wrap .v4 5)⟩

def longestReserved : List Step := [⟨"a", 1, .lock⟩, reserveLongest]

theorem longestLength : (Utf8.encode longestOwner).length = payloadLimit - 28 := by
  rw [longestOwner, Utf8.encodeRepeated]
  exact Nat.mul_one _

theorem longestFits : (Operation.reserve (.wrap .v4 5) longestOwner).Fits := by
  rw [Operation.Fits, writeReserveLength, longestLength]
  decide

theorem longestRelease : releaseSize longestOwner [.wrap .v4 5] = payloadLimit + 8 := by
  have one : ([Address.wrap .v4 5].flatMap writeAddress).length = 8 := rfl
  have above : 28 ≤ payloadLimit := by decide
  rw [releaseSize, longestLength, one]
  omega

theorem longestHeld :
    ∃ store before, ((Backing.disk "net").run "a" longestReserved
          ((Backing.disk "net").start "/data" "a" {})).2.find? "a" = some (.disk "net" store) ∧
      store.locked = some before ∧ before.table = Table.empty.put (.wrap .v4 5) longestOwner := by
  have named : Named "net" := @namedOpened "/data" "net" "a" {} rfl
  obtain ⟨serves, obeys⟩ := @startServes "/data" "net" "a" {} named
  generalize (Backing.disk "net").start "/data" "a" {} = start at serves obeys ⊢
  have nothing : (Step.mk "a" 1 .lock).change? start = none := by
    cases made : (Step.mk "a" 1 .lock).change? start with
    | none => rfl
    | some operation =>
      obtain ⟨t, made⟩ := changeMade made
      cases made
  have outcome := diskStep named "a" serves obeys.halting (by decide) ⟨"a", 1, .lock⟩
  rw [nothing] at outcome
  obtain ⟨once, locked, serves, obeys, _⟩ := outcome.obeyed obeys (by simp)
  have fits : ∀ operation, reserveLongest.change? once = some operation → operation.Fits := by
    intro operation made
    obtain ⟨t, made⟩ := changeMade made
    simp only [reserveLongest, Command.change?] at made
    split at made
    · cases made
      exact longestFits
    · contradiction
  obtain ⟨twice, reserved, serves, _⟩ :=
    (diskStep named "a" serves obeys.halting (by decide) reserveLongest).obeyed obeys fits
  obtain ⟨store, handle, before, found, holds⟩ := serves.held rfl
  rw [longestReserved, runCons, runCons, locked, reserved]
  refine ⟨store, before, found, holds.loaded, ?_⟩
  rw [holds.ready.table, ← serves.table]
  rfl

theorem longestUnreleased :
    ∃ h store before, (((Host.empty "/data").openDisk "a" "net" {}).1 = .ok () ∧
        longestReserved.length + 1 < space 8 ∧
        ((Backing.disk "net").run "a" longestReserved
          ((Backing.disk "net").start "/data" "a" {})).2 = h ∧
        h.find? "a" = some (.disk "net" store) ∧ store.locked = some before) ∧
      before.table.owner? (.wrap .v4 5) = some longestOwner ∧
      ∃ t next, (h.volume.disk "net" store).releaseOwner longestOwner =
          (.error (.payload (.tooLarge (payloadLimit + 8) payloadLimit)), t) ∧
        t.store.locked = some next ∧ next.table = before.table := by
  obtain ⟨store, before, found, held, table⟩ := longestHeld
  obtain ⟨h, reached⟩ : ∃ h, ((Backing.disk "net").run "a" longestReserved
    ((Backing.disk "net").start "/data" "a" {})).2 = h := ⟨_, rfl⟩
  rw [reached] at found
  have few : longestReserved.length + 1 < space 8 := by decide
  have one : before.table.addressesOf longestOwner = [.wrap .v4 5] := by
    rw [table, Table.addressesOf, Table.heldPut, if_pos rfl]
    rfl
  have owned : before.table.owner? (.wrap .v4 5) = some longestOwner := by
    rw [table, Table.ownerPut, if_pos rfl]
  obtain ⟨result, t, next, released, after, outcome⟩ :=
    releasesWithinLimit rfl longestReserved few reached found held longestOwner
  rw [one, longestRelease, if_neg (by simp)] at outcome
  obtain ⟨rfl, same⟩ := outcome
  exact ⟨h, store, before, ⟨rfl, few, reached, found, held⟩, owned, t, next, released, after, same⟩

end Session
end AddressPool
