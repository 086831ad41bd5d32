import AddressPool.Proofs.Medium.Calls

/-! The lock file of a tidy folder. Taking and dropping the lock changes its holder and
nothing else; opening the lock file again hands out one more handle on the same file. -/
namespace AddressPool.Folder

structure Follows (d e : Folder) : Prop where
  lock : e.names .lock = d.names .lock
  handles : e.handles = d.handles
  fate : e.fate = d.fate

theorem Follows.refl (d : Folder) : Follows d d := ⟨rfl, rfl, rfl⟩

theorem Follows.trans {d e f : Folder} (first : Follows d e) (second : Follows e f) :
    Follows d f :=
  ⟨second.lock.trans first.lock, second.handles.trans first.handles,
    second.fate.trans first.fate⟩

theorem Effect.follows {d e : Folder} {files : Files} (effect : Effect d e files) : Follows d e :=
  ⟨effect.lock, effect.handles, effect.fate⟩

structure Relocked (d e : Folder) (node : Nat) (holder : Option Nat) : Prop
    extends Follows d e where
  tidy : e.Tidy
  files : e.files = d.files
  names : e.names = d.names
  holder : e.holder? node = holder
  calls : e.calls = d.calls

theorem setHolderContent (d : Folder) (node id : Nat) (holder : Option Nat) :
    (d.setHolder node holder).content? id = d.content? id := by
  simp only [content?, setHolder, List.getElem?_modify]
  split
  · cases d.nodes[id]? <;> rfl
  · cases d.nodes[id]? <;> rfl

theorem setHolderFiles (d : Folder) (node : Nat) (holder : Option Nat) :
    (d.setHolder node holder).files = d.files := by
  funext name
  have same : (d.setHolder node holder).content? = d.content? :=
    funext fun id => setHolderContent d node id holder
  simp only [files, same]
  rfl

theorem setHolderTidy {d : Folder} (tidy : Tidy d) (node : Nat) (holder : Option Nat) :
    Tidy (d.setHolder node holder) := by
  refine ⟨tidy.shape, tidy.apart, ?_⟩
  intro name id there
  rw [setHolderContent]
  exact tidy.plain there

theorem setHolderRelocked {d : Folder} (tidy : Tidy d) {node : Nat}
    (bound : d.names .lock = some node) (holder : Option Nat) :
    Relocked d (d.setHolder node holder) node holder where
  lock := rfl
  handles := rfl
  fate := rfl
  tidy := setHolderTidy tidy node holder
  files := setHolderFiles d node holder
  names := rfl
  holder := by
    obtain ⟨bytes, synced, content⟩ := tidy.plain bound
    simp only [content?, Option.map_eq_some_iff] at content
    obtain ⟨found, there, _⟩ := content
    simp [holder?, setHolder, there]
  calls := rfl

theorem takeLockTidy {d e : Folder} (tidy : Tidy d) {handle : LockHandle} {taken : Bool}
    (took : d.takeLock handle = (taken, e)) : Tidy e ∧ e.fate = d.fate := by
  unfold takeLock at took
  split at took
  · cases took
    exact ⟨tidy, rfl⟩
  · cases took
    exact ⟨setHolderTidy tidy handle.node _, rfl⟩

theorem takeLockFree {d : Folder} (tidy : Tidy d) {handle : LockHandle}
    (bound : d.names .lock = some handle.node) (free : d.holder? handle.node = none) :
    ∃ e, d.takeLock handle = (true, e) ∧ Relocked d e handle.node (some handle.id) :=
  ⟨_, by simp only [takeLock, free], setHolderRelocked tidy bound (some handle.id)⟩

theorem takeLockHeld {d : Folder} {handle : LockHandle} {other : Nat}
    (held : d.holder? handle.node = some other) (apart : other ≠ handle.id) :
    d.takeLock handle = (false, d) := by
  simp only [takeLock, held, beq_eq_false_iff_ne.mpr apart]

theorem dropLockFiles (d : Folder) (handle : LockHandle) :
    (d.dropLock handle).files = d.files := by
  unfold dropLock
  split
  · exact setHolderFiles d handle.node none
  · rfl

theorem dropLockHeld {d : Folder} (tidy : Tidy d) {handle : LockHandle}
    (bound : d.names .lock = some handle.node) (held : d.holder? handle.node = some handle.id) :
    Relocked d (d.dropLock handle) handle.node none := by
  rw [dropLock, if_pos held]
  exact setHolderRelocked tidy bound none

theorem Relocked.halting {d e : Folder} {node : Nat} {holder : Option Nat}
    (relocked : Relocked d e node holder) (halting : Halting d) : Halting e := by
  intro n call fault kept fails
  rw [relocked.fate] at fails ⊢
  exact halting fails

theorem Relocked.halted {d e : Folder} {node : Nat} {holder : Option Nat}
    (relocked : Relocked d e node holder) (halted : Halted d) : Halted e := by
  intro later next past
  rw [relocked.calls] at past
  rw [relocked.fate]
  exact halted later next past

theorem makeDone {d : Folder} (tidy : Tidy d) (done : d.fate d.calls .makeFolder = .done) :
    d.make = (.ok (), d.asked) := by
  simp only [make, askDone done, show d.asked.shape = .folder from tidy.shape]

theorem makeFails {d : Folder} {fault : OsFault} {kept : Nat}
    (fails : d.fate d.calls .makeFolder = .fails fault kept) : d.make = (.error fault, d.asked) := by
  simp only [make, askFails fails]

theorem openLockFails {d : Folder} {fault : OsFault} {kept : Nat}
    (fails : d.fate d.calls .openLock = .fails fault kept) :
    d.openLock = (.error fault, d.asked) := by
  simp only [openLock, openNode, askFails fails]

def handed (d : Folder) : Folder := { d.asked with handles := d.handles + 1 }

theorem openLockDone {d : Folder} (tidy : Tidy d) {node : Nat} (bound : d.names .lock = some node)
    (done : d.fate d.calls .openLock = .done) :
    d.openLock = (.ok ⟨node, d.handles⟩, d.handed) := by
  obtain ⟨bytes, synced, content⟩ := tidy.plain bound
  have shape : d.asked.shape = .folder := tidy.shape
  have there : d.asked.names .lock = some node := bound
  have plain : d.asked.content? node = some (.file bytes synced) := content
  simp only [openLock, openNode, askDone done, shape, there, plain, handed]
  rfl

end AddressPool.Folder
