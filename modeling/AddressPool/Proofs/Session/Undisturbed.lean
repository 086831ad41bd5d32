import AddressPool.Proofs.Session.Moves
import AddressPool.Proofs.Store.Disk

/-! What an unlocked instance can do. The calls that need the lock are refused without it, and the
others do not reach the files or the table that another instance has locked; so nothing changes what
a locked instance sees, as long as it is not called itself. -/
namespace AddressPool
open Session

def Place.Stands (h g : Host) : Place → Prop
  | .network name => (g.volume.folder name).names = (h.volume.folder name).names ∧
      (g.volume.folder name).nodes = (h.volume.folder name).nodes
  | .table number => g.shared number = h.shared number

namespace Place.Stands

variable {h g k : Host} {place : Place}

theorem refl (h : Host) : place.Stands h h := by
  cases place with
  | network name => exact ⟨rfl, rfl⟩
  | table number => rfl

theorem trans (first : place.Stands h g) (second : place.Stands g k) : place.Stands h k := by
  cases place with
  | network name => exact ⟨second.1.trans first.1, second.2.trans first.2⟩
  | table number => exact Eq.trans second first

theorem ofFolder {name : String} (same : g.volume.folder name = h.volume.folder name) :
    (Place.network name).Stands h g :=
  ⟨congrArg Folder.names same, congrArg Folder.nodes same⟩

theorem ofParts (folders : ∀ name, g.volume.folder name = h.volume.folder name)
    (tables : ∀ number, g.shared number = h.shared number) : place.Stands h g := by
  cases place with
  | network name => exact ofFolder (folders name)
  | table number => exact tables number

end Place.Stands

namespace Session

def Use.refusal? : Use → Option Answer
  | .reserve _ _ => some (.reserved (.error (.notLocked .reserve)))
  | .releaseOwner _ => some (.done (.error (.notLocked .releaseOwner)))
  | .lastReserved => some (.marker (.error (.notLocked .lastReserved)))
  | _ => none

theorem Use.refusedDisk {call : Use} {answer : Answer} (needs : call.refusal? = some answer)
    {s : Disk} (unlocked : s.store.locked = none) : call.run s = (answer, s) := by
  cases call with
  | reserve owner a =>
    cases needs
    simp only [run, Store.reserve, Disk.reserve, unlocked]
  | releaseOwner owner =>
    cases needs
    simp only [run, Store.releaseOwner, Disk.releaseOwner, unlocked]
  | lastReserved =>
    cases needs
    simp only [run, Store.lastReserved, Disk.lastReserved, unlocked]
  | lock => cases needs
  | unlock => cases needs
  | close => cases needs

theorem Use.refusedMemory {call : Use} {answer : Answer} (needs : call.refusal? = some answer)
    {s : Memory} (idle : s.holding = false) : call.run s = (answer, s) := by
  cases call with
  | reserve owner a =>
    cases needs
    simp [run, Store.reserve, Memory.reserve, idle]
  | releaseOwner owner =>
    cases needs
    simp [run, Store.releaseOwner, Memory.releaseOwner, idle]
  | lastReserved =>
    cases needs
    simp [run, Store.lastReserved, Memory.lastReserved, idle]
  | lock => cases needs
  | unlock => cases needs
  | close => cases needs

theorem Use.servedDisk {call : Use} {answer : Answer} (needs : call.refusal? = some answer)
    {s : Disk} (locked : s.isLocked = true) : (call.run s).1 ≠ answer := by
  obtain ⟨state, loaded⟩ := Option.isSome_iff_exists.mp locked
  cases call with
  | reserve owner a =>
    cases needs
    simp only [run, Store.reserve, Disk.reserve, loaded]
    split
    · simp
    · split
      · simp
      · next recorded =>
        intro same
        exact Disk.recordFault (congrArg Prod.fst recorded) .reserve
          (Except.error.inj (Answer.reserved.inj same))
  | releaseOwner owner =>
    cases needs
    simp only [run, Store.releaseOwner, Disk.releaseOwner, loaded]
    split
    · simp
    · intro same
      exact Disk.recordFault (Answer.done.inj same) .releaseOwner rfl
  | lastReserved =>
    cases needs
    simp [run, Store.lastReserved, Disk.lastReserved, loaded]
  | lock => cases needs
  | unlock => cases needs
  | close => cases needs

theorem Use.servedMemory {call : Use} {answer : Answer} (needs : call.refusal? = some answer)
    {s : Memory} (holding : s.holding = true) : (call.run s).1 ≠ answer := by
  cases call with
  | reserve owner a =>
    cases needs
    simp [run, Store.reserve, Memory.reserve, holding]
  | releaseOwner owner =>
    cases needs
    simp [run, Store.releaseOwner, Memory.releaseOwner, holding]
  | lastReserved =>
    cases needs
    simp [run, Store.lastReserved, Memory.lastReserved, holding]
  | lock => cases needs
  | unlock => cases needs
  | close => cases needs

theorem Use.idleDisk (call : Use) {s : Disk} (unlocked : s.store.locked = none)
    (waits : ∀ handle, s.store.handle = some handle →
      ∃ other, s.folder.holder? handle.node = some other ∧ other ≠ handle.id) :
    (call.run s).2.folder = s.folder := by
  cases call with
  | lock =>
    change s.lock.2.folder = s.folder
    cases opened : s.store.handle with
    | none => simp [Disk.lock, Disk.isLocked, unlocked, opened]
    | some handle => rw [Disk.lockWaits ⟨opened, unlocked, waits handle opened⟩]
  | unlock => exact congrArg (·.2.folder) (Disk.unlockUnlocked unlocked)
  | close => exact congrArg (·.2.folder) (Disk.closeUnlocked unlocked)
  | reserve owner a => rw [refusedDisk rfl unlocked]
  | releaseOwner owner => rw [refusedDisk rfl unlocked]
  | lastReserved => rw [refusedDisk rfl unlocked]

theorem Use.idleMemory (call : Use) {s : Memory} (idle : s.holding = false)
    (held : s.shared.held = true) : (call.run s).2.shared = s.shared := by
  cases call with
  | lock => simp [run, Store.lock, Memory.lock, idle, held]
  | unlock => simp [run, Store.unlock, Memory.unlock, idle]
  | close => simp [run, Store.close, Memory.unlock, idle]
  | reserve owner a => rw [refusedMemory rfl idle]
  | releaseOwner owner => rw [refusedMemory rfl idle]
  | lastReserved => rw [refusedMemory rfl idle]

def Move.Apart (id : String) (place : Place) : Move → Prop
  | .openMemory other => other ≠ id
  | .clone other _ => other ≠ id
  | .openDisk other _ _ => other ≠ id
  | .drop other => other ≠ id
  | .use other _ => other ≠ id
  | .tamper network _ _ => place ≠ .network network

end Session

namespace Host

variable {h : Host} {id : String} {i : Instance}

namespace Disciplined

variable (disciplined : h.Disciplined)
include disciplined

theorem one {other : String} {j : Instance} (found : h.find? id = some i)
    (there : h.find? other = some j) (same : i.place = j.place) (locked : i.isLocked = true)
    (too : j.isLocked = true) : id = other := by
  cases i with
  | disk network store =>
    cases j with
    | disk name rival =>
      cases same
      exact (disciplined.networks network).one found there locked too
    | memory table holding => exact absurd same Place.kindsApart
  | memory table holding =>
    cases j with
    | disk name rival => exact absurd same Place.kindsApart.symm
    | memory number also =>
      cases same
      cases locked
      cases too
      exact (disciplined.tables table).one found there

section Undisturbed

variable (found : h.find? id = some i) (locked : i.isLocked = true)
include found locked

theorem undisturbedOn (call : Use) {other : String} (apart : other ≠ id) :
    (call.on other h).2.find? id = some i ∧ i.place.Stands h (call.on other h).2 := by
  refine ⟨(call.onOthers (Ne.symm apart)).trans found, ?_⟩
  cases there : h.find? other with
  | none =>
    rw [call.onMissing there]
    exact .refl h
  | some j =>
    have idle (same : i.place = j.place) : j.isLocked = false :=
      Bool.eq_false_iff.mpr fun too => apart (disciplined.one found there same locked too).symm
    cases j with
    | disk name rival =>
      rw [call.onDisk there]
      cases i with
      | memory table holding => exact (rfl : Host.shared _ table = _)
      | disk network store =>
        by_cases here : name = network
        · subst here
          have guarded := disciplined.networks name
          have idle := Option.not_isSome_iff_eq_none.mp (Bool.eq_false_iff.mp (idle rfl))
          obtain ⟨mine, opened⟩ := Option.ne_none_iff_exists'.mp (guarded.opened found locked)
          have held := guarded.live.mpr ⟨id, store, found, opened, locked⟩
          refine .ofFolder ((folderMoved h name other _).trans (call.idleDisk idle ?_))
          -- The other handle is on the same lock file, but it has a number of its own.
          intro handle handed
          have bound := (guarded.known there handed).1.symm.trans (guarded.known found opened).1
          refine ⟨mine.id, Option.some.inj bound ▸ held, fun same => apart ?_⟩
          have equal : mine = handle := by
            cases mine
            cases handle
            cases same
            cases bound
            rfl
          exact guarded.apart there found handed (equal ▸ opened)
        · exact .ofFolder (h.volume.folderOther (Ne.symm here) _)
    | memory number holding =>
      rw [call.onMemory there]
      cases i with
      | disk network store => exact ⟨rfl, rfl⟩
      | memory table mine =>
        change (h.movedMemory number other _).shared table = h.shared table
        by_cases here : number = table
        · subst here
          cases locked
          have latched := disciplined.tables number
          have held := latched.flag.mpr ⟨id, found⟩
          rw [sharedMoved (latched.within there)]
          exact call.idleMemory (idle rfl) held
        · exact sharedOther here _

theorem undisturbedDrop {other : String} (apart : other ≠ id) :
    (h.drop other).2.find? id = some i ∧ i.place.Stands h (h.drop other).2 := by
  cases there : h.find? other with
  | none =>
    rw [dropMissing there]
    exact ⟨found, .refl h⟩
  | some j =>
    obtain ⟨still, stands⟩ := disciplined.undisturbedOn found locked .close apart
    rw [dropForgets there]
    exact ⟨(findsOther (findForget _ other) (Ne.symm apart)).trans still,
      stands.trans (.ofParts (fun _ => rfl) fun _ => rfl)⟩

theorem undisturbedOpen {other : String} (apart : other ≠ id) (network : String)
    (settings : StoreSettings) : (h.openDisk other network settings).2.find? id = some i ∧
      i.place.Stands h (h.openDisk other network settings).2 := by
  obtain ⟨still, stands⟩ := disciplined.undisturbedDrop found locked apart
  have dropped := disciplined.drop other
  unfold Host.openDisk
  cases opened : (h.drop other).2.volume.openStore settings network with
  | mk result volume =>
    have find {k : Host} (same : k.instances = (h.drop other).2.instances) :
        k.find? id = some i := by rw [find?, same]; exact still
    rcases Volume.openStoreOpens opened with ⟨fault, rfl, files⟩ | ⟨path, handle, rfl, opens, others⟩
    · simp only [opened]
      refine ⟨still, stands.trans ?_⟩
      cases i with
      | disk name store => exact ⟨(files name).names, (files name).nodes⟩
      | memory table holding => exact (rfl : Host.shared _ table = _)
    · simp only [opened]
      refine ⟨(findsOther (findPut _ other · _) (Ne.symm apart)).trans still, stands.trans ?_⟩
      cases i with
      | memory table holding => exact (rfl : Host.shared _ table = _)
      | disk name store =>
        by_cases here : name = network
        · subst here
          have guarded := dropped.networks name
          obtain ⟨mine, handed⟩ := Option.ne_none_iff_exists'.mp (guarded.opened still locked)
          exact opens.still ((guarded.known still handed).1 ▸ Option.some_ne_none _)
        · exact .ofFolder (others name here)

theorem undisturbedStep {move : Move} (apart : move.Apart id i.place) :
    (move.step h).find? id = some i ∧ i.place.Stands h (move.step h) := by
  cases move with
  | openMemory other =>
    obtain ⟨still, stands⟩ := disciplined.undisturbedDrop found locked apart
    refine ⟨(findsOther (findPut _ other · _) (Ne.symm apart)).trans still, stands.trans ?_⟩
    exact .ofParts (fun _ => rfl) (newTableShared _)
  | clone other source =>
    simp only [Move.step, Host.clone]
    split
    · obtain ⟨still, stands⟩ := disciplined.undisturbedDrop found locked apart
      refine ⟨(findsOther (findPut _ other · _) (Ne.symm apart)).trans still, stands.trans ?_⟩
      exact .ofParts (fun _ => rfl) fun _ => rfl
    · exact ⟨found, .refl h⟩
  | openDisk other network settings =>
    exact disciplined.undisturbedOpen found locked apart network settings
  | drop other => exact disciplined.undisturbedDrop found locked apart
  | use other call => exact disciplined.undisturbedOn found locked call apart
  | tamper network change spares =>
    refine ⟨found, ?_⟩
    cases i with
    | disk name store =>
      exact .ofFolder (h.volume.folderOther (fun same => apart (congrArg Place.network same)) _)
    | memory table holding => exact (rfl : Host.shared _ table = _)

end Undisturbed

theorem undisturbed (found : h.find? id = some i) (locked : i.isLocked = true) (moves : List Move)
    (apart : ∀ move ∈ moves, move.Apart id i.place) :
    (Move.run moves h).find? id = some i ∧ i.place.Stands h (Move.run moves h) := by
  induction moves generalizing h with
  | nil => exact ⟨found, .refl h⟩
  | cons move rest ih =>
    obtain ⟨still, stands⟩ := disciplined.undisturbedStep found locked (apart move (by simp))
    obtain ⟨last, after⟩ := ih (disciplined.step move) still fun next there =>
      apart next (List.mem_cons_of_mem move there)
    exact ⟨last, stands.trans after⟩

end Disciplined
end Host
end AddressPool
