import AddressPool.Proofs.Session.Requests
import AddressPool.Proofs.Store.Atomic

/-! A session between two requests when nothing is known of how its table came about. A call
through any of its instances finds that table and answers for what it has made of it. -/
namespace AddressPool
open Bytes

namespace Disk

variable {store other : DiskStore} {d e : Folder} {handle next : Folder.LockHandle}
variable {table : Table} {number : Nat}

theorem Rests.alike (rests : Rests ⟨store, d⟩ handle table number) (alike : d.Alike e)
    (fate : e.fate = d.fate) : Rests ⟨store, e⟩ handle table number := by
  have bound : e.names .lock = some handle.node := by
    rw [alike.names]
    exact rests.bound
  exact rests.moved ⟨rests.opened, rests.unlocked, bound, (alike.holder _).trans rests.free,
    alike.tidy rests.tidy, rests.careful.same fate⟩ alike.files

theorem Rests.beside (rests : Rests ⟨store, d⟩ handle table number)
    (opened : other.handle = some next) (unlocked : other.locked = none)
    (node : next.node = handle.node) : Rests ⟨other, d⟩ next table number := by
  refine rests.moved ⟨opened, unlocked, ?_, ?_, rests.tidy, rests.careful⟩ rfl
  · rw [node]
    exact rests.bound
  · rw [node]
    exact rests.free

end Disk
namespace Session

inductive Quiet (first : String) : Backing → Host → Table → Nat → Prop where
  | disk {network : String} {h : Host} {t : Table} {count : Nat} (named : Named network)
      (there : (h.find? first).isSome)
      (rests : ∀ {id i}, h.find? id = some i → ∃ store handle, i = .disk network store ∧
        (h.volume.disk network store).Rests handle t count)
      (size : t.size ≤ count) : Quiet first (.disk network) h t count
  | memory {h : Host} {p : Pool} {count : Nat} (remembers : Remembers first h p)
      (idle : p.holding = none) : Quiet first .memory h p.table count

theorem Rests.quiet {first : String} {b : Backing} {h : Host} {log : List Operation}
    (rests : Rests first b h log) : Quiet first b h (tableOf log) log.length := by
  cases rests with
  | @disk network h node p log serves obeys idle there named =>
    refine .disk named ((serves.known first).trans there) ?_ ?_
    · intro id i found
      obtain ⟨store, _, rfl, _⟩ := serves.stores found
      obtain ⟨handle, free⟩ := serves.freeOf idle found
      obtain ⟨t, locks, ⟨⟨locked, holds⟩, _⟩⟩ :=
        (Disk.laws (h.volume.folder network) handle).lock ⟨free, obeys, .refl _⟩
      have careful : (h.volume.folder network).Careful := fun n call _ => obeys n call
      have unheld : (h.volume.disk network store).Unheld handle :=
        ⟨free.opened, free.unlocked, free.lock, free.holder, free.tidy, careful⟩
      have rests := (unheld.takes locks holds.loaded).1
      obtain ⟨_, _, _, written⟩ := holds.ready.records
      rw [written, holds.ready.table] at rests
      exact ⟨store, handle, rfl, rests⟩
    · have grown := Table.sizeApplyAll Table.empty log
      rwa [show Table.empty.size = 0 from rfl, Nat.zero_add] at grown
  | memory remembers idle table =>
    rw [← table]
    exact .memory remembers idle

section Quiet

variable {first id : String} {b : Backing} {h : Host} {t : Table} {count : Nat}

theorem Quiet.lists (quiet : Quiet first b h t count) (counts : b.Counts count) :
    Lists first h t.toList := by
  cases quiet with
  | disk named there rests size =>
    refine ⟨there, ?_⟩
    intro id i found
    obtain ⟨store, handle, rfl, rests⟩ := rests found
    exact rests.reads (Nat.lt_of_le_of_lt size counts)
  | memory remembers idle => exact remembers.lists

theorem Quiet.timed (quiet : Quiet first b h t count) (time : Nat) :
    Quiet first b (b.setTime time h) t count := by
  cases quiet with
  | disk named there rests size =>
    refine .disk named (by rwa [findTimed]) ?_ size
    intro id i found
    rw [findTimed] at found
    obtain ⟨store, handle, rfl, rests⟩ := rests found
    refine ⟨store, handle, rfl, ?_⟩
    rw [Volume.disk, folderTimed]
    exact rests.alike ⟨rfl, rfl, rfl⟩ rfl
  | memory remembers idle => exact .memory remembers idle

theorem Quiet.later {more : Nat} (quiet : Quiet first b h t count) (less : count ≤ more) :
    Quiet first b h t more := by
  cases quiet with
  | disk named there rests size =>
    refine .disk named there ?_ (Nat.le_trans size less)
    intro id i found
    obtain ⟨store, handle, same, rests⟩ := rests found
    exact ⟨store, handle, same, rests.later less⟩
  | memory remembers idle => exact .memory remembers idle

theorem quietReplaced {network : String} {next : Host} {fresh : DiskStore}
    {own : Folder.LockHandle} (named : Named network) (there : (h.find? first).isSome)
    (instances : ∀ other, next.find? other =
      if other = id then some (.disk network fresh) else h.find? other)
    (mine : (next.volume.disk network fresh).Rests own t count)
    (others : ∀ {other i}, h.find? other = some i → ∃ store handle, i = .disk network store ∧
      (next.volume.disk network store).Rests handle t count) (size : t.size ≤ count) :
    Quiet first (.disk network) next t count := by
  refine .disk named ?_ ?_ size
  · rw [instances]
    split
    · rfl
    · exact there
  · intro other i found
    rw [instances] at found
    split at found
    · cases found
      exact ⟨fresh, own, rfl, mine⟩
    · exact others found

theorem enterOpens {network : String}
    (unlocked : ∀ {i}, h.find? id = some i → ∃ store, i = .disk network store ∧ store.locked = none)
    (settings : StoreSettings) :
    ∃ g : Host, ((Backing.disk network).enter first id settings h).2 =
        ((Backing.disk network).openInstance first id settings g).2 ∧
      g.volume.folder network = h.volume.folder network ∧
      ∀ other, g.find? other = if other = id then none else h.find? other := by
  cases found : h.find? id with
  | none =>
    refine ⟨h, by simp only [Backing.enter, Host.callMissing found], rfl, ?_⟩
    intro other
    split
    · next same => rw [same, found]
    · rfl
  | some i =>
    obtain ⟨store, rfl, idle⟩ := unlocked found
    have given : (h.volume.disk network store).unlock = _ := Disk.unlockUnlocked idle
    refine ⟨closed network id store h, ?_, folderClosed given idle,
      fun other => findClosed network id other store h⟩
    simp only [Backing.enter, Host.callDisk found]
    rw [openAgain]
    rfl

theorem openBeside {network : String} {store : DiskStore} {handle : Folder.LockHandle} {g : Host}
    (named : Named network) (missing : g.find? id = none)
    (rests : Disk.Rests ⟨store, g.volume.folder network⟩ handle t count)
    (settings : StoreSettings) :
    ∃ fresh own next, ((Backing.disk network).openInstance first id settings g).2 = next ∧
      (∀ other, next.find? other = if other = id then some (.disk network fresh) else g.find? other) ∧
      (g.volume.folder network).Alike (next.volume.folder network) ∧
      (next.volume.folder network).fate = (g.volume.folder network).fate ∧
      Disk.Rests ⟨fresh, next.volume.folder network⟩ own t count := by
  have opened := openStoreDone named settings rests.tidy rests.bound (rests.careful _ _ (by simp))
    (rests.careful _ _ (by simp))
  let e := (g.volume.folder network).asked.handed
  let mine : Folder.LockHandle := ⟨handle.node, (g.volume.folder network).handles⟩
  let fresh : DiskStore := ⟨g.volume.path network, settings, some mine, none⟩
  let next : Host := { g with volume := g.volume.setFolder network e }.put id (.disk network fresh)
  have place : next.volume.folder network = e := Volume.folderSet g.volume network e
  have alike : (g.volume.folder network).Alike e := ⟨rfl, rfl, rfl⟩
  refine ⟨fresh, mine, next, ?_, fun other => Host.findPut _ id other _, ?_, ?_, ?_⟩
  · simp only [Backing.openInstance, Host.openDisk, Host.dropMissing missing, opened, next, fresh,
      mine, e]
  · rw [place]
    exact alike
  · rw [place]
    rfl
  · rw [place]
    exact (rests.alike alike rfl).beside rfl rfl rfl

theorem Quiet.entered (quiet : Quiet first b h t count) (id : String) (settings : StoreSettings) :
    Quiet first b (b.enter first id settings h).2 t count := by
  cases quiet with
  | @disk network h t count named there rests size =>
    have idle {i : Instance} (found : h.find? id = some i) :
        ∃ store, i = .disk network store ∧ store.locked = none := by
      obtain ⟨store, _, rfl, rests⟩ := rests found
      exact ⟨store, rfl, rests.unlocked⟩
    obtain ⟨g, entered, folder, others⟩ := @enterOpens first id h network idle settings
    simp only [Volume.disk, ← folder] at rests
    obtain ⟨i, found⟩ := Option.isSome_iff_exists.mp there
    obtain ⟨_, _, _, one⟩ := rests found
    obtain ⟨fresh, handle, next, opened, instances, alike, fate, mine⟩ :=
      @openBeside first id t count network _ _ g named (by rw [others, if_pos rfl]) one settings
    have instances (other : String) : next.find? other =
        if other = id then some (.disk network fresh) else h.find? other := by
      rw [instances, others]
      split
      · rfl
      · rfl
    rw [entered, opened]
    refine quietReplaced named there instances mine ?_ size
    intro other i found
    obtain ⟨store, handle, rfl, theirs⟩ := rests found
    exact ⟨store, handle, rfl, theirs.alike alike fate⟩
  | @memory h p count remembers idle =>
    have after := (@Remembers.entered first id h p remembers settings).2
    have left : p.leave id = p := if_neg (by simp [idle])
    have table : p.table = (p.enter id).2.table := by rw [Pool.enter, left]
    rw [table]
    refine .memory after ?_
    rw [Pool.enter, left]
    exact idle

theorem Quiet.called (quiet : Quiet first b h t count) {i : Instance} (found : h.find? id = some i)
    {α : Type} (run : {σ : Type} → [Store σ] → σ → Except Fault α × σ)
    {change : α → Table → Prop} (grows : ∀ {value table}, change value table → table.size ≤ t.size + 1)
    (counts : b.Counts (count + 1))
    (onDisk : ∀ {s : Disk} {handle}, count + 1 < space 8 → t.size ≤ count → s.Rests handle t count →
      Settles (Disk.Rests · handle · (count + 1)) t change (run s))
    (inMemory : Settles (fun u table => u = Memory.mk false ⟨false, table⟩) t change
      (run (Memory.mk false ⟨false, t⟩))) :
    ∃ result next, h.call id run = some (result, next) ∧
      Settles (Quiet first b · · (count + 1)) t change (result, next) := by
  cases quiet with
  | @disk network h t count named there rests size =>
    obtain ⟨store, handle, rfl, mine⟩ := rests found
    have settles := onDisk counts size mine
    have called := Host.callDisk found run
    -- All the instances have the one lock file, so they find what this one left.
    have quiet {u : Disk} {table : Table} (low : table.size ≤ count + 1)
        (left : u.Rests handle table (count + 1)) :
        Quiet first (.disk network) (h.movedDisk network id u) table (count + 1) := by
      have folder := Host.folderMoved h network id u
      have here : ((h.movedDisk network id u).volume.disk network u.store).Rests handle table
          (count + 1) := by
        rw [Volume.disk, folder]
        exact left
      refine quietReplaced named there (Host.findMoved h network id · u) here ?_ low
      intro other i found
      obtain ⟨store, next, rfl, theirs⟩ := rests found
      have node : next.node = handle.node := Option.some.inj (theirs.bound.symm.trans mine.bound)
      exact ⟨store, next, rfl, here.beside theirs.opened theirs.unlocked node⟩
    rw [called]
    generalize run (h.volume.disk network store) = outcome at settles
    rcases outcome with ⟨fault | value, u⟩
    · exact ⟨_, _, rfl, quiet (Nat.le_succ_of_le size) settles⟩
    · obtain ⟨table, changed, left⟩ := settles
      have low := grows changed
      exact ⟨_, _, rfl, table, changed, quiet (by omega) left⟩
  | @memory h p count remembers idle =>
    have known : p.known id = true := by
      rw [← remembers.known, found]
      rfl
    have quiet (table : Table) : Quiet first .memory
        (h.movedMemory 0 id (Memory.mk false ⟨false, table⟩)) table (count + 1) :=
      .memory (remembers.movedIdle idle known table) idle
    rw [remembers.calledIdle idle known]
    generalize run (Memory.mk false ⟨false, p.table⟩) = outcome at inMemory
    rcases outcome with ⟨fault | value, u⟩
    · obtain rfl := inMemory
      exact ⟨_, _, rfl, quiet p.table⟩
    · obtain ⟨table, changed, rfl⟩ := inMemory
      exact ⟨_, _, rfl, table, changed, quiet table⟩

theorem Quiet.requested (quiet : Quiet first b h t count) (id : String) {α : Type}
    (wrap : Except Fault α → Reply) (run : {σ : Type} → [Store σ] → σ → Except Fault α × σ)
    {change : α → Table → Prop}
    (grows : ∀ {value table}, change value table → table.size ≤ t.size + 1)
    (counts : b.Counts (count + 1))
    (onDisk : ∀ {s : Disk} {handle}, count + 1 < space 8 → t.size ≤ count → s.Rests handle t count →
      Settles (Disk.Rests · handle · (count + 1)) t change (run s))
    (inMemory : Settles (fun u table => u = Memory.mk false ⟨false, table⟩) t change
      (run (Memory.mk false ⟨false, t⟩))) :
    ∃ reply next after, request id wrap run h = (reply, next) ∧
      Quiet first b next after (count + 1) ∧
      (after = t ∧ (reply = .missing ∨ ∃ fault, reply = wrap (.error fault)) ∨
        ∃ value, reply = wrap (.ok value) ∧ change value after) := by
  cases found : h.find? id with
  | none =>
    exact ⟨.missing, h, t, by simp only [request, Host.callMissing found],
      quiet.later (Nat.le_succ count), .inl ⟨rfl, .inl rfl⟩⟩
  | some i =>
    obtain ⟨result, next, called, settles⟩ := quiet.called found run grows counts onDisk inMemory
    have replied : request id wrap run h = (wrap result, next) := by simp only [request, called]
    cases result with
    | error fault => exact ⟨_, next, t, replied, settles, .inl ⟨rfl, .inr ⟨fault, rfl⟩⟩⟩
    | ok value =>
      obtain ⟨after, changed, quiet⟩ := settles
      exact ⟨_, next, after, replied, quiet, .inr ⟨value, rfl, changed⟩⟩

end Quiet
end Session
end AddressPool
