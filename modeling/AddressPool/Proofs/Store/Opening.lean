import AddressPool.Proofs.Medium.Handles
import AddressPool.Proofs.Medium.Spares
import AddressPool.Proofs.Session.Instances

/-! What opening a store leaves of the files, whatever they are before: the network's folder with its
lock file in it, and all else as it was. It leaves no trace exactly where the lock file was there. -/
namespace AddressPool

namespace Folder

structure Same (d e : Folder) : Prop where
  shape : e.shape = d.shape
  names : e.names = d.names
  content : ∀ id, e.content? id = d.content? id

inductive Enters (d e : Folder) : Prop where
  | there (shape : e.shape = .folder) (bound : d.names .lock ≠ none) (names : e.names = d.names)
      (content : ∀ id, e.content? id = d.content? id)
  | made (shape : e.shape = .folder) (unbound : d.names .lock = none) (node : Nat)
      (lock : e.names .lock = some node) (empty : e.content? node = some (.file [] 0))
      (names : ∀ name, name ≠ .lock → e.names name = d.names name)
      (content : ∀ id, id ≠ node → e.content? id = d.content? id)

variable {d e f : Folder}

theorem Same.refl (d : Folder) : Same d d := ⟨rfl, rfl, fun _ => rfl⟩

theorem Enters.sameIff (enters : d.Enters e) :
    d.Same e ↔ ∃ node, d.find .lock = .ok (some node) := by
  cases enters with
  | there shape bound names content =>
    obtain ⟨node, lock⟩ := Option.ne_none_iff_exists'.mp bound
    constructor
    · intro same
      refine ⟨node, ?_⟩
      rw [find, ← same.shape, shape, ← lock]
    · rintro ⟨other, found⟩
      exact ⟨shape.trans (foundFolder found).1.symm, names, content⟩
  | made shape unbound node lock empty names content =>
    constructor
    · intro same
      rw [same.names, unbound] at lock
      cases lock
    · rintro ⟨other, found⟩
      cases unbound.symm.trans (foundFolder found).2

theorem Enters.before (still : d.Still f) (enters : f.Enters e) : d.Enters e := by
  have kept (id : Nat) : f.content? id = d.content? id := by rw [content?, content?, still.nodes]
  cases enters with
  | there shape bound names content =>
    exact .there shape (still.names ▸ bound) (names.trans still.names) fun id =>
      (content id).trans (kept id)
  | made shape unbound node lock empty names content =>
    exact .made shape (still.names ▸ unbound) node lock empty
      (fun name other => (names name other).trans (by rw [still.names])) fun id other =>
      (content id other).trans (kept id)

theorem Enters.handed (enters : d.Enters e) (handles : Nat) :
    d.Enters { e with handles := handles } := by
  cases enters with
  | there shape bound names content => exact .there shape bound names content
  | made shape unbound node lock empty names content =>
    exact .made shape unbound node lock empty names content

theorem createEnters (shape : d.shape = .folder) (unbound : d.names .lock = none) :
    d.Enters (d.create .lock (.file [] 0)).2 :=
  .made shape unbound d.nodes.length (by simp [create, bind])
    ((createContent .lock _ _).trans (if_pos rfl)) (fun _ other => if_neg other)
    fun id other => (createContent .lock _ id).trans (if_neg other)

theorem openLockEnters {handle : LockHandle} (opened : d.openLock = (.ok handle, e)) :
    d.Enters e := by
  unfold openLock at opened
  split at opened <;> rename_i found <;> cases opened
  refine .handed ?_ _
  unfold openNode at found
  split at found <;> rename_i asked
  · cases found
  · refine .before (askStill asked) ?_
    split at found
    · cases found
    · cases found
    · next shape =>
      split at found <;> rename_i bound
      · cases found
        exact createEnters shape bound
      · split at found <;> cases found
        exact .there shape (by rw [bound]; nofun) rfl fun _ => rfl

end Folder

theorem DiskStore.ofFolderEnters (path : String) (settings : StoreSettings) (d : Folder) :
    (∃ fault e, ofFolder path settings d = (.error (.os fault), e)) ∨
    ∃ store e, ofFolder path settings d = (.ok store, e) ∧ store.locked = none ∧ d.Enters e := by
  unfold ofFolder
  split
  · exact .inl ⟨_, _, rfl⟩
  · next f made =>
    split
    · exact .inl ⟨_, _, rfl⟩
    · next handle e opened =>
      exact .inr ⟨_, _, rfl, rfl, .before (Folder.makeStill made) (Folder.openLockEnters opened)⟩

namespace Volume

variable {v w : Volume} {network : String}

def Untouched (v w : Volume) : Prop := ∀ network, (v.folder network).Same (w.folder network)

structure Enters (v w : Volume) (network : String) : Prop where
  own : (v.folder network).Enters (w.folder network)
  others : ∀ other, other ≠ network → w.folder other = v.folder other

theorem Enters.untouchedIff (enters : v.Enters w network) :
    v.Untouched w ↔ ∃ node, (v.folder network).find .lock = .ok (some node) := by
  rw [← enters.own.sameIff]
  constructor
  · intro untouched
    exact untouched network
  · intro same other
    by_cases own : other = network
    · exact own ▸ same
    · rw [enters.others other own]
      exact .refl _

theorem openStoreEnters (settings : StoreSettings) (v : Volume)
    (checked : Network.checkName network = .ok ()) :
    (∃ fault w, v.openStore settings network = (.error (.os fault), w)) ∨
    ∃ store w, v.openStore settings network = (.ok store, w) ∧ store.locked = none ∧
      v.Enters w network := by
  simp only [openStore, checked]
  split
  · exact .inl ⟨_, _, rfl⟩
  · rcases DiskStore.ofFolderEnters (v.path network) settings (v.folder network) with
      ⟨fault, e, failed⟩ | ⟨store, e, opened, unlocked, enters⟩
    · exact .inl ⟨fault, _, by rw [failed]⟩
    · refine .inr ⟨store, _, by rw [opened], unlocked, ?_, fun other apart => ?_⟩
      · rw [folderSet]
        exact enters
      · exact folderOther v apart e

end Volume

end AddressPool
