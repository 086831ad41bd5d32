import AddressPool.Proofs.Medium.Calls

/-! Calls on a file that is held open. Whatever the folder holds besides, and whatever its names
are bound to, a call changes the contents of that file and nothing else. -/
namespace AddressPool.Folder

structure Rewrites (d e : Folder) (id : Nat) (bytes : Bytes) (synced : Nat) : Prop where
  content : e.content? id = some (.file bytes synced)
  others : ∀ other, other ≠ id → e.content? other = d.content? other
  names : e.names = d.names
  shape : e.shape = d.shape
  fate : e.fate = d.fate

variable {d e f : Folder} {id synced covered : Nat} {bytes other : Bytes}

theorem Rewrites.trans (first : Rewrites d e id bytes synced)
    (second : Rewrites e f id other covered) : Rewrites d f id other covered where
  content := second.content
  others place apart := (second.others place apart).trans (first.others place apart)
  names := second.names.trans first.names
  shape := second.shape.trans first.shape
  fate := second.fate.trans first.fate

theorem setRewrites (content : d.content? id = some (.file bytes synced)) (other : Bytes)
    (covered : Nat) :
    Rewrites d (d.asked.setContent id (.file other covered)) id other covered where
  content := by
    have asked : d.asked.content? id = some (.file bytes synced) := content
    rw [contentSet, if_pos rfl, asked]
    rfl
  others place apart := by
    rw [contentSet, if_neg (Ne.symm apart)]
    rfl
  names := rfl
  shape := rfl
  fate := rfl

section Calls

variable {call : Call} {fault : OsFault} {kept : Nat}
variable (content : d.content? id = some (.file bytes synced))
include content

theorem appendsAll (done : d.fate d.calls call = .done) (more : Bytes) :
    ∃ e, d.append call id more = (.ok (), e) ∧ Rewrites d e id (bytes ++ more) synced :=
  ⟨_, by simp only [append, askDone done, content], setRewrites content _ _⟩

theorem appendsPart (fails : d.fate d.calls call = .fails fault kept) (more : Bytes) :
    ∃ e, d.append call id more = (.error fault, e) ∧
      Rewrites d e id (bytes ++ more.take kept) synced :=
  ⟨_, by simp only [append, askFails fails, content], setRewrites content _ _⟩

theorem syncs (done : d.fate d.calls call = .done) :
    ∃ e, d.sync call id = (.ok (), e) ∧ Rewrites d e id bytes bytes.length :=
  ⟨_, by simp only [sync, askDone done, content], setRewrites content _ _⟩

theorem syncsNothing (fails : d.fate d.calls call = .fails fault kept) :
    ∃ e, d.sync call id = (.error fault, e) ∧ Rewrites d e id bytes synced :=
  ⟨d.asked, by simp only [sync, askFails fails], content, fun _ _ => rfl, rfl, rfl, rfl⟩

theorem cuts (cut flush : Call) (length : Nat) :
    (∃ e, d.cutTo cut flush id length = (.ok (), e) ∧
      Rewrites d e id (resize bytes length) (resize bytes length).length) ∨
    ∃ fault e, d.cutTo cut flush id length = (.error fault, e) ∧ ¬ d.ObeysIn [cut, flush] := by
  cases cutting : d.fate d.calls cut with
  | fails fault kept =>
    exact .inr ⟨fault, d.asked, by simp only [cutTo, setLength, askFails cutting],
      notObeysIn cutting List.mem_cons_self⟩
  | done =>
    have shorter := setRewrites content (resize bytes length) (min synced length)
    have resized : d.setLength cut id length =
        (.ok (), d.asked.setContent id (.file (resize bytes length) (min synced length))) := by
      simp only [setLength, askDone cutting, content]
    cases flushing : (d.asked.setContent id (.file (resize bytes length) (min synced length))).fate
        (d.asked.setContent id (.file (resize bytes length) (min synced length))).calls flush with
    | fails fault kept =>
      obtain ⟨f, failed, _⟩ := syncsNothing shorter.content flushing
      refine .inr ⟨fault, f, by simp only [cutTo, resized, failed], ?_⟩
      intro obeys
      exact notObeysIn flushing (by simp) (obeys.same shorter.fate)
    | done =>
      obtain ⟨f, flushed, next⟩ := syncs shorter.content flushing
      exact .inl ⟨f, by simp only [cutTo, resized, flushed], shorter.trans next⟩

end Calls

theorem resizeShort {bytes : Bytes} {length : Nat} (inside : length ≤ bytes.length) :
    resize bytes length = bytes.take length := by
  rw [resize, Nat.sub_eq_zero_of_le inside, List.replicate_zero, List.append_nil]

def Filed (d : Folder) (name : FileName) (bytes : Bytes) : Prop :=
  ∃ id synced, d.find name = .ok (some id) ∧ d.content? id = some (.file bytes synced)

variable {name : FileName}

theorem Filed.read (filed : d.Filed name bytes) : d.read name = .ok (some bytes) := by
  obtain ⟨id, synced, found, content⟩ := filed
  simp only [Folder.read, found, content]

theorem foundFolder (found : d.find name = .ok (some id)) :
    d.shape = .folder ∧ d.names name = some id := by
  unfold find at found
  split at found
  · cases found
  · cases found
  · next folder => exact ⟨folder, Except.ok.inj found⟩

theorem opens (call : Call) (found : d.find name = .ok (some id))
    (content : d.content? id = some (.file bytes synced)) :
    d.openNode call name = (.ok id, d.asked) ∨
    ∃ fault, d.openNode call name = (.error fault, d.asked) := by
  have ⟨folder, bound⟩ := foundFolder found
  have shape : d.asked.shape = .folder := folder
  have names : d.asked.names name = some id := bound
  have there : d.asked.content? id = some (.file bytes synced) := content
  cases asking : d.fate d.calls call with
  | done => exact .inl (by simp only [openNode, askDone asking, shape, names, there])
  | fails fault kept => exact .inr ⟨fault, by simp only [openNode, askFails asking]⟩

theorem Rewrites.filed (rewrites : d.Rewrites e id other synced)
    (found : d.find name = .ok (some id)) : e.Filed name other := by
  refine ⟨id, synced, ?_, rewrites.content⟩
  simp only [find, rewrites.shape, rewrites.names]
  exact found

def only (name : FileName) (bytes : Bytes) : Folder :=
  { absent with
    shape := .folder
    names := fun other => if other = name then some 0 else none
    nodes := [⟨.file bytes bytes.length, none⟩] }

theorem onlyFiled (name : FileName) (bytes : Bytes) : (only name bytes).Filed name bytes :=
  ⟨0, bytes.length, congrArg Except.ok (if_pos rfl), rfl⟩

end AddressPool.Folder
