import AddressPool.Medium.Edit
import AddressPool.Proofs.Medium.Effect

/-! What has nothing to do with a lock. Reading, writing and replacing the other files, in folders
of any kind and however the calls end, spares the lock file: the name stays bound to it, the handles
handed out on it stay the same, and so does whoever holds it. A lock that is taken or dropped passes
to that holder, and nothing else about the locks changes. -/
namespace AddressPool.Folder

structure Spares (d e : Folder) : Prop where
  lock : e.names .lock = d.names .lock
  handles : e.handles = d.handles
  nodes : d.nodes.length ≤ e.nodes.length
  holders : ∀ id, e.holder? id = d.holder? id

namespace Spares

variable {d e f : Folder}

theorem refl (d : Folder) : Spares d d := ⟨rfl, rfl, Nat.le_refl _, fun _ => rfl⟩

theorem trans (first : Spares d e) (second : Spares e f) : Spares d f where
  lock := second.lock.trans first.lock
  handles := second.handles.trans first.handles
  nodes := Nat.le_trans first.nodes second.nodes
  holders id := (second.holders id).trans (first.holders id)

end Spares

variable (d : Folder)

theorem setContentSpares (id : Nat) (content : Content) : d.Spares (d.setContent id content) where
  lock := rfl
  handles := rfl
  nodes := by simp [setContent]
  holders other := holderSet d id other content

theorem bindSpares {name : FileName} (other : name ≠ .lock) (id : Option Nat) :
    d.Spares (d.bind name id) :=
  ⟨if_neg (Ne.symm other), rfl, Nat.le_refl _, fun _ => rfl⟩

theorem createSpares {name : FileName} (other : name ≠ .lock) (content : Content) :
    d.Spares (d.create name content).2 where
  lock := if_neg (Ne.symm other)
  handles := rfl
  nodes := by simp [create, bind]
  holders := createHolder name content

structure Still (d e : Folder) : Prop where
  names : e.names = d.names
  nodes : e.nodes = d.nodes
  handles : e.handles = d.handles

theorem Still.spares {d e : Folder} (still : d.Still e) : d.Spares e where
  lock := by rw [still.names]
  handles := still.handles
  nodes := Nat.le_of_eq (by rw [still.nodes])
  holders id := by rw [holder?, holder?, still.nodes]

theorem Still.trans {d e f : Folder} (first : d.Still e) (second : e.Still f) : d.Still f :=
  ⟨second.names.trans first.names, second.nodes.trans first.nodes,
    second.handles.trans first.handles⟩

section Calls

variable {d} {e : Folder} {call : Call} {name : FileName} {id : Nat}

theorem askStill {outcome : Outcome} (asked : d.ask call = (outcome, e)) : d.Still e := by
  cases asked
  exact ⟨rfl, rfl, rfl⟩

theorem askSpares {outcome : Outcome} (asked : d.ask call = (outcome, e)) : d.Spares e :=
  (askStill asked).spares

theorem openNodeCases {result : Except OsFault Nat} (opened : d.openNode call name = (result, e)) :
    (∃ fault, result = .error fault ∧ d.Still e) ∨
    (∃ id, result = .ok id ∧ d.names name = some id ∧ d.Still e) ∨
    ∃ f, d.names name = none ∧ d.Still f ∧ result = .ok f.nodes.length ∧
      e = (f.create name (.file [] 0)).2 := by
  unfold openNode at opened
  split at opened <;> rename_i f asked
  · cases opened
    exact .inl ⟨_, rfl, askStill asked⟩
  · have still := askStill asked
    split at opened
    · cases opened
      exact .inl ⟨_, rfl, still⟩
    · cases opened
      exact .inl ⟨_, rfl, still⟩
    · split at opened <;> rename_i bound
      · cases opened
        exact .inr (.inr ⟨_, still.names ▸ bound, still, rfl, rfl⟩)
      · split at opened <;> cases opened
        · exact .inl ⟨_, rfl, still⟩
        · exact .inr (.inl ⟨_, rfl, still.names ▸ bound, still⟩)

theorem openNodeSpares {result : Except OsFault Nat} (other : name ≠ .lock)
    (opened : d.openNode call name = (result, e)) : d.Spares e := by
  rcases openNodeCases opened with ⟨_, _, still⟩ | ⟨_, _, _, still⟩ | ⟨f, _, still, _, rfl⟩
  · exact still.spares
  · exact still.spares
  · exact still.spares.trans (createSpares f other _)

theorem appendSpares {result : Except OsFault Unit} {more : Bytes}
    (appended : d.append call id more = (result, e)) : d.Spares e := by
  unfold append at appended
  split at appended <;> cases appended
  · exact (askSpares ‹_›).trans (setContentSpares _ _ _)
  · exact (askSpares ‹_›).trans (setContentSpares _ _ _)
  all_goals exact askSpares ‹_›

theorem syncSpares {result : Except OsFault Unit} (synced : d.sync call id = (result, e)) :
    d.Spares e := by
  unfold sync at synced
  split at synced <;> cases synced
  · exact askSpares ‹_›
  · exact (askSpares ‹_›).trans (setContentSpares _ _ _)
  · exact askSpares ‹_›

theorem setLengthSpares {result : Except OsFault Unit} {length : Nat}
    (resized : d.setLength call id length = (result, e)) : d.Spares e := by
  unfold setLength at resized
  split at resized <;> cases resized
  · exact askSpares ‹_›
  · exact (askSpares ‹_›).trans (setContentSpares _ _ _)
  · exact askSpares ‹_›

theorem cutToSpares {result : Except OsFault Unit} {sync : Call} {length : Nat}
    (cut : d.cutTo call sync id length = (result, e)) : d.Spares e := by
  unfold cutTo at cut
  split at cut <;> rename_i resized
  · cases cut
    exact setLengthSpares resized
  · exact (setLengthSpares resized).trans (syncSpares cut)

theorem createTemporarySpares {result : Except OsFault Nat}
    (created : d.createTemporary = (result, e)) : d.Spares e := by
  unfold createTemporary at created
  split at created <;> rename_i opened
  · cases created
    exact openNodeSpares (by decide) opened
  · refine (openNodeSpares (by decide) opened).trans ?_
    split at created <;> cases created
    · exact setContentSpares _ _ _
    · exact .refl _

theorem replaceSnapshotSpares {result : Except OsFault Unit}
    (replaced : d.replaceSnapshot = (result, e)) : d.Spares e := by
  unfold replaceSnapshot at replaced
  split at replaced <;> rename_i asked
  · cases replaced
    exact askSpares asked
  · refine (askSpares asked).trans ?_
    split at replaced
    · cases replaced
      exact .refl _
    · cases replaced
      exact .refl _
    · cases replaced
      exact .refl _
    · split at replaced <;> cases replaced
      · exact .refl _
      · exact (bindSpares _ (by decide) _).trans (bindSpares _ (by decide) _)

theorem syncFolderSpares {result : Except OsFault Unit} (synced : d.syncFolder = (result, e)) :
    d.Spares e := by
  unfold syncFolder at synced
  split at synced <;> rename_i asked <;> cases synced
  · exact askSpares asked
  · exact askSpares asked

theorem makeStill {result : Except OsFault Unit} (made : d.make = (result, e)) : d.Still e := by
  unfold make at made
  split at made <;> rename_i asked
  · cases made
    exact askStill asked
  · refine (askStill asked).trans ?_
    split at made <;> cases made <;> exact ⟨rfl, rfl, rfl⟩

end Calls

section Locks

structure Passes (d e : Folder) (node : Nat) (holder : Option Nat) : Prop where
  lock : e.names .lock = d.names .lock
  handles : e.handles = d.handles
  nodes : d.nodes.length ≤ e.nodes.length
  holder : e.holder? node = holder
  others : ∀ id, id ≠ node → e.holder? id = d.holder? id

variable {d} {e f : Folder} {node : Nat} {holder : Option Nat}

theorem Passes.spares (passes : d.Passes e node holder) (spares : e.Spares f) :
    d.Passes f node holder where
  lock := spares.lock.trans passes.lock
  handles := spares.handles.trans passes.handles
  nodes := Nat.le_trans passes.nodes spares.nodes
  holder := (spares.holders node).trans passes.holder
  others id other := (spares.holders id).trans (passes.others id other)

theorem Spares.passes (spares : d.Spares e) (passes : e.Passes f node holder) :
    d.Passes f node holder where
  lock := passes.lock.trans spares.lock
  handles := passes.handles.trans spares.handles
  nodes := Nat.le_trans spares.nodes passes.nodes
  holder := passes.holder
  others id other := (passes.others id other).trans (spares.holders id)

theorem Passes.trans {next : Option Nat} (first : d.Passes e node holder)
    (second : e.Passes f node next) : d.Passes f node next where
  lock := second.lock.trans first.lock
  handles := second.handles.trans first.handles
  nodes := Nat.le_trans first.nodes second.nodes
  holder := second.holder
  others id other := (second.others id other).trans (first.others id other)

theorem setHolderPasses (there : node < d.nodes.length) (holder : Option Nat) :
    d.Passes (d.setHolder node holder) node holder where
  lock := rfl
  handles := rfl
  nodes := by simp [setHolder]
  holder := by simp [holder?, setHolder, there]
  others id other := by simp [holder?, setHolder, Ne.symm other]

theorem heldThere {other : Nat} (held : d.holder? node = some other) : node < d.nodes.length := by
  refine Nat.lt_of_not_le fun past => ?_
  rw [holder?, List.getElem?_eq_none past] at held
  cases held

theorem dropLockPasses {handle : LockHandle} (held : d.holder? handle.node = some handle.id) :
    d.Passes (d.dropLock handle) handle.node none := by
  rw [dropLock, if_pos held]
  exact setHolderPasses (heldThere held) none

structure Opens (d e : Folder) (handle : LockHandle) : Prop where
  bound : e.names .lock = some handle.node
  fresh : handle.id = d.handles
  handles : e.handles = d.handles + 1
  there : (∀ node, d.names .lock = some node → node < d.nodes.length) →
    handle.node < e.nodes.length
  nodes : d.nodes.length ≤ e.nodes.length
  holders : ∀ id, e.holder? id = d.holder? id
  still : d.names .lock ≠ none → e.names = d.names ∧ e.nodes = d.nodes

theorem Still.opens {handle : LockHandle} (still : d.Still e) (opens : e.Opens f handle) :
    d.Opens f handle where
  bound := opens.bound
  fresh := opens.fresh.trans still.handles
  handles := by rw [opens.handles, still.handles]
  there bounded := opens.there (by rw [still.names, still.nodes]; exact bounded)
  nodes := Nat.le_trans still.spares.nodes opens.nodes
  holders id := (opens.holders id).trans (still.spares.holders id)
  still bound := by
    obtain ⟨names, nodes⟩ := opens.still (by rw [still.names]; exact bound)
    exact ⟨names.trans still.names, nodes.trans still.nodes⟩

theorem openLockOpens {result : Except OsFault LockHandle} (opened : d.openLock = (result, e)) :
    (∃ fault, result = .error fault ∧ d.Still e) ∨
    ∃ handle, result = .ok handle ∧ d.Opens e handle := by
  unfold openLock at opened
  split at opened <;> rename_i found <;> cases opened
  · rcases openNodeCases found with ⟨_, _, still⟩ | ⟨_, impossible, _⟩ | ⟨_, _, _, impossible, _⟩
    · exact .inl ⟨_, rfl, still⟩
    · cases impossible
    · cases impossible
  · rename_i node f
    refine .inr ⟨_, rfl, ?_⟩
    rcases openNodeCases found with ⟨_, impossible, _⟩ | ⟨_, ⟨⟩, bound, still⟩ |
      ⟨g, absent, still, ⟨⟩, rfl⟩
    · cases impossible
    · exact ⟨still.names ▸ bound, still.handles, by rw [still.handles], fun there =>
        Nat.lt_of_lt_of_le (there _ bound) still.spares.nodes, still.spares.nodes,
        still.spares.holders, fun _ => ⟨still.names, still.nodes⟩⟩
    · have grown : g.nodes.length < (g.create .lock (.file [] 0)).2.nodes.length := by
        simp [create, bind]
      exact ⟨by simp [create, bind], still.handles, by rw [← still.handles]; rfl, fun _ => grown,
        Nat.le_trans still.spares.nodes (Nat.le_of_lt grown),
        fun id => (createHolder .lock _ id).trans (still.spares.holders id),
        fun bound => absurd absent bound⟩

end Locks

section Edits

variable {name : FileName} (other : name ≠ .lock)
include other

theorem writeSpares (bytes : Bytes) : d.Spares (d.write name bytes) := by
  unfold write
  split
  · exact createSpares d other _
  · split
    · exact setContentSpares d _ _
    · exact .refl d

theorem changeSpares (f : Bytes → Bytes) : d.Spares (d.change name f) := by
  unfold change
  split
  · exact writeSpares d other _
  · exact .refl d

theorem extendSpares (more : Bytes) : d.Spares (d.extend name more) := by
  unfold extend
  split
  · exact writeSpares d other more
  · exact changeSpares d other _

theorem replaceByDeviceSpares (device : Content) : d.Spares (d.replaceByDevice name device) := by
  unfold replaceByDevice
  split
  · exact bindSpares d other _
  · exact createSpares d other device

end Edits
end AddressPool.Folder
