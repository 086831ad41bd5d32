import AddressPool.Medium

/-! The files of a folder that nobody else has touched: every name is bound to a plain file
of its own. `Effect` says what became of the files between two states of a folder; the lock,
its holders and the folder's fate stay as they were. -/
namespace AddressPool

abbrev Files := FileName → Option (Bytes × Nat)

def Files.set (files : Files) (name : FileName) (file : Option (Bytes × Nat)) : Files :=
  fun other => if other = name then file else files other

@[simp] theorem Files.setSame (files : Files) (name : FileName) (file : Option (Bytes × Nat)) :
    files.set name file name = file := if_pos rfl

@[simp] theorem Files.setOther (files : Files) {name other : FileName}
    (file : Option (Bytes × Nat)) (apart : other ≠ name) :
    files.set name file other = files other := if_neg apart

theorem Files.setTwice (files : Files) (name : FileName) (first last : Option (Bytes × Nat)) :
    (files.set name first).set name last = files.set name last := by
  funext other
  by_cases same : other = name
  · subst same
    rw [Files.setSame, Files.setSame]
  · rw [Files.setOther _ _ same, Files.setOther _ _ same, Files.setOther _ _ same]

namespace Folder

def files (d : Folder) : Files := fun name =>
  match (d.names name).bind d.content? with
  | some (.file bytes synced) => some (bytes, synced)
  | _ => none

structure Tidy (d : Folder) : Prop where
  shape : d.shape = .folder
  apart : ∀ {name other : FileName} {id : Nat},
    d.names name = some id → d.names other = some id → name = other
  plain : ∀ {name : FileName} {id : Nat}, d.names name = some id →
    ∃ bytes synced, d.content? id = some (.file bytes synced)

theorem Tidy.bare {d : Folder} (shape : d.shape = .folder) {id synced : Nat} {bytes : Bytes}
    (names : ∀ name, d.names name = if name = .lock then some id else none)
    (content : d.content? id = some (.file bytes synced)) : Tidy d where
  shape := shape
  apart {name other place} one two := by
    rw [names] at one two
    split at one <;> split at two <;> simp_all
  plain {name place} bound := by
    rw [names] at bound
    split at bound
    · cases bound
      exact ⟨bytes, synced, content⟩
    · contradiction

structure Effect (before after : Folder) (files : Files) : Prop where
  tidy : after.Tidy
  files : after.files = files
  journal : ∀ id, before.names .journal = some id → after.names .journal = some id
  lock : after.names .lock = before.names .lock
  holders : ∀ id, after.holder? id = before.holder? id
  handles : after.handles = before.handles
  clock : after.clock = before.clock
  fate : after.fate = before.fate
  calls : before.calls ≤ after.calls

theorem Effect.refl {d : Folder} (tidy : Tidy d) : Effect d d d.files :=
  ⟨tidy, rfl, fun _ bound => bound, rfl, fun _ => rfl, rfl, rfl, rfl, Nat.le_refl d.calls⟩

theorem Effect.trans {d e f : Folder} {between last : Files} (first : Effect d e between)
    (second : Effect e f last) : Effect d f last where
  tidy := second.tidy
  files := second.files
  journal id bound := second.journal id (first.journal id bound)
  lock := second.lock.trans first.lock
  holders id := (second.holders id).trans (first.holders id)
  handles := second.handles.trans first.handles
  clock := second.clock.trans first.clock
  fate := second.fate.trans first.fate
  calls := Nat.le_trans first.calls second.calls

theorem filesBound {d : Folder} {name : FileName} {id : Nat} {bytes : Bytes} {synced : Nat}
    (bound : d.names name = some id) (file : d.content? id = some (.file bytes synced)) :
    d.files name = some (bytes, synced) := by
  simp only [files, bound, Option.bind_some, file]

theorem boundContent {d : Folder} {name : FileName} {id : Nat} {bytes : Bytes} {synced : Nat}
    (tidy : Tidy d) (bound : d.names name = some id) (file : d.files name = some (bytes, synced)) :
    d.content? id = some (.file bytes synced) := by
  obtain ⟨others, length, content⟩ := tidy.plain bound
  rw [filesBound bound content] at file
  cases file
  exact content

theorem filesBoundTo {d : Folder} {name : FileName} {bytes : Bytes} {synced : Nat}
    (file : d.files name = some (bytes, synced)) :
    ∃ id, d.names name = some id ∧ d.content? id = some (.file bytes synced) := by
  cases bound : d.names name with
  | none => simp [files, bound] at file
  | some id =>
    refine ⟨id, rfl, ?_⟩
    simp only [files, bound, Option.bind_some] at file
    split at file
    · cases file
      assumption
    · contradiction

theorem filesUnbound {d : Folder} {name : FileName} (tidy : Tidy d) :
    d.files name = none ↔ d.names name = none := by
  constructor
  · intro absent
    cases bound : d.names name with
    | none => rfl
    | some id =>
      obtain ⟨bytes, synced, content⟩ := tidy.plain bound
      simp [filesBound bound content] at absent
  · intro unbound
    simp [files, unbound]

theorem contentSet (d : Folder) (id other : Nat) (content : Content) :
    (d.setContent id content).content? other =
      if id = other then (d.content? other).map fun _ => content else d.content? other := by
  simp only [content?, setContent, List.getElem?_modify]
  split
  · cases d.nodes[other]? <;> rfl
  · cases d.nodes[other]? <;> rfl

theorem holderSet (d : Folder) (id other : Nat) (content : Content) :
    (d.setContent id content).holder? other = d.holder? other := by
  simp only [holder?, setContent, List.getElem?_modify]
  split
  · cases d.nodes[other]? <;> rfl
  · cases d.nodes[other]? <;> rfl

def asked (d : Folder) : Folder := { d with calls := d.calls + 1 }

theorem askDone {d : Folder} {call : Call} (done : d.fate d.calls call = .done) :
    d.ask call = (.done, d.asked) := by
  simp only [ask, done, asked]

theorem askFails {d : Folder} {call : Call} {fault : OsFault} {kept : Nat}
    (fails : d.fate d.calls call = .fails fault kept) :
    d.ask call = (.fails fault kept, d.asked) := by
  simp only [ask, fails, asked]

theorem askedEffect {d : Folder} (tidy : Tidy d) : Effect d d.asked d.files :=
  ⟨⟨tidy.shape, tidy.apart, tidy.plain⟩, rfl, fun _ bound => bound, rfl, fun _ => rfl, rfl, rfl, rfl,
    Nat.le_succ d.calls⟩

section Names

variable {d : Folder} (tidy : Tidy d)
include tidy

theorem setTidy (id : Nat) (bytes : Bytes) (synced : Nat) :
    Tidy (d.setContent id (.file bytes synced)) := by
  refine ⟨tidy.shape, tidy.apart, ?_⟩
  intro name place bound
  obtain ⟨old, length, content⟩ := tidy.plain bound
  rw [contentSet]
  split
  · exact ⟨bytes, synced, by rw [content]; rfl⟩
  · exact ⟨old, length, content⟩

theorem setFiles {name : FileName} {id : Nat} (bound : d.names name = some id) (bytes : Bytes)
    (synced : Nat) :
    (d.setContent id (.file bytes synced)).files = d.files.set name (some (bytes, synced)) := by
  funext other
  by_cases same : other = name
  · subst same
    obtain ⟨old, length, content⟩ := tidy.plain bound
    rw [Files.setSame]
    refine filesBound bound ?_
    rw [contentSet, if_pos rfl, content]
    rfl
  · rw [Files.setOther _ _ same]
    cases there : d.names other with
    | none => simp [files, setContent, there]
    | some place =>
      have differ : id ≠ place := by
        intro equal
        subst equal
        exact same (tidy.apart there bound)
      obtain ⟨old, length, content⟩ := tidy.plain there
      rw [filesBound there content]
      refine filesBound there ?_
      rw [contentSet, if_neg differ, content]

theorem setEffect {name : FileName} {id : Nat} (bound : d.names name = some id) (bytes : Bytes)
    (synced : Nat) :
    Effect d (d.asked.setContent id (.file bytes synced))
      (d.files.set name (some (bytes, synced))) where
  tidy := setTidy (askedEffect tidy).tidy id bytes synced
  files := setFiles (askedEffect tidy).tidy bound bytes synced
  journal _ there := there
  lock := rfl
  holders other := holderSet d.asked id other _
  handles := rfl
  clock := rfl
  fate := rfl
  calls := Nat.le_succ d.calls

omit tidy in
theorem createContent (name : FileName) (content : Content) (other : Nat) :
    (d.create name content).2.content? other =
      if other = d.nodes.length then some content else d.content? other := by
  simp only [create, content?, bind, List.getElem?_append]
  by_cases last : other = d.nodes.length
  · simp [last]
  · by_cases old : other < d.nodes.length
    · simp [last, old]
    · have past : other - d.nodes.length ≠ 0 := by omega
      simp [last, old, past]

theorem boundOld {name : FileName} {id : Nat} (bound : d.names name = some id) :
    id ≠ d.nodes.length := by
  obtain ⟨bytes, synced, content⟩ := tidy.plain bound
  intro last
  simp [content?, last] at content

theorem createTidy (name : FileName) (bytes : Bytes) (synced : Nat) :
    Tidy (d.create name (.file bytes synced)).2 where
  shape := tidy.shape
  apart {first second id} one two := by
    simp only [create, bind] at one two
    split at one
    · split at two
      · rename_i a b
        exact a.trans b.symm
      · cases Option.some.inj one
        exact absurd rfl (boundOld tidy two)
    · split at two
      · cases Option.some.inj two
        exact absurd rfl (boundOld tidy one)
      · exact tidy.apart one two
  plain {other id} bound := by
    rw [createContent]
    split
    · exact ⟨bytes, synced, rfl⟩
    · rename_i old
      simp only [create, bind] at bound
      split at bound
      · exact absurd (Option.some.inj bound).symm old
      · exact tidy.plain bound

theorem createFiles {name : FileName} (unbound : d.names name = none) :
    (d.create name (.file [] 0)).2.files = d.files.set name (some ([], 0)) := by
  funext other
  have names : (d.create name (.file [] 0)).2.names other =
      if other = name then some d.nodes.length else d.names other := rfl
  by_cases same : other = name
  · subst same
    rw [Files.setSame]
    rw [if_pos rfl] at names
    refine filesBound names ?_
    rw [createContent, if_pos rfl]
  · rw [Files.setOther _ _ same]
    rw [if_neg same] at names
    cases there : d.names other with
    | none => simp [files, names, there]
    | some place =>
      obtain ⟨old, length, content⟩ := tidy.plain there
      rw [filesBound there content]
      refine filesBound (names.trans there) ?_
      rw [createContent, if_neg (boundOld tidy there), content]

omit tidy in
theorem createHolder (name : FileName) (content : Content) (id : Nat) :
    (d.create name content).2.holder? id = d.holder? id := by
  simp only [create, holder?, bind, List.getElem?_append]
  by_cases old : id < d.nodes.length
  · simp [old]
  · have absent : d.nodes[id]? = none := List.getElem?_eq_none (Nat.le_of_not_lt old)
    rw [if_neg old, absent]
    cases id - d.nodes.length with
    | zero => rfl
    | succ past => rfl

end Names

end Folder
end AddressPool
