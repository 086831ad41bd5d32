import AddressPool.Proofs.Store.Load

/-! What a crash may leave of the files of a store. Of each file it keeps some length from the
synced one up, or the whole length with zeros from an entry's end on. What the files record
afterwards begins with everything that was covered. -/
namespace AddressPool
open Journal Bytes

inductive Leaves (bytes : Bytes) (synced : Nat) : Bytes → Prop where
  | cut (count : Nat) (kept : synced ≤ count) : Leaves bytes synced (bytes.take count)
  | zeros (count : Nat) (kept : synced ≤ count) (within : count ≤ bytes.length)
      (boundary : (walk (bytes.take count)).ending = .clean) :
      Leaves bytes synced (bytes.take count ++ List.replicate (bytes.length - count) 0)

structure Folder.Crash (d e : Folder) : Prop where
  shape : e.shape = d.shape
  names : e.names = d.names
  files : ∀ {id bytes synced}, d.content? id = some (.file bytes synced) →
    ∃ left, Leaves bytes synced left ∧ e.content? id = some (.file left left.length)
  free : ∀ id, e.holder? id = none

theorem leavesSynced {bytes left : Bytes} (leaves : Leaves bytes bytes.length left) :
    left = bytes := by
  cases leaves with
  | cut count kept => exact List.take_of_length_le kept
  | zeros count kept within boundary =>
    have all : count = bytes.length := Nat.le_antisymm within kept
    rw [all, Nat.sub_self, List.take_length, List.replicate_zero, List.append_nil]

theorem leavesWritten {entries : List Entry} (sound : ∀ e ∈ entries, e.Sound) {tail left : Bytes}
    {synced : Nat} (remnant : Remnant tail) (leaves : Leaves (written entries ++ tail) synced left) :
    ∃ front rest, front <+: entries ∧ Remnant rest ∧ left = written front ++ rest ∧
      ∀ safe, safe <+: entries → (written safe).length ≤ synced → safe <+: front := by
  cases leaves with
  | cut count kept =>
    obtain ⟨front, rest, among, remains, cut, safe⟩ := takeWritten sound remnant count
    exact ⟨front, rest, among, remains, cut,
      fun other first before => safe other first (Nat.le_trans before kept)⟩
  | zeros count kept within boundary =>
    obtain ⟨front, rest, among, remains, cut, safe⟩ := takeWritten sound remnant count
    have soundFront : ∀ e ∈ front, e.Sound := fun e member => sound e (among.subset member)
    have whole : rest = [] := by
      have walked : walk (written front ++ rest) = _ := walkWritten 0 soundFront remains
      rw [cut, walked] at boundary
      cases rest with
      | nil => rfl
      | cons b more => simp at boundary
    refine ⟨front, List.replicate ((written entries ++ tail).length - count) 0, among, ?_, ?_,
      fun other first before => safe other first (Nat.le_trans before kept)⟩
    · cases (written entries ++ tail).length - count with
      | zero => exact .nothing
      | succ more => exact .zeros more
    · rw [cut, whole, List.append_nil]

namespace Folder.Crash

variable {d e : Folder}

theorem tidy (crash : Crash d e) (tidy : d.Tidy) : e.Tidy := by
  refine ⟨crash.shape.trans tidy.shape, ?_, ?_⟩
  · intro name other id one two
    rw [crash.names] at one two
    exact tidy.apart one two
  · intro name id bound
    rw [crash.names] at bound
    obtain ⟨bytes, synced, content⟩ := tidy.plain bound
    obtain ⟨left, _, after⟩ := crash.files content
    exact ⟨left, left.length, after⟩

theorem absent (crash : Crash d e) (tidy : d.Tidy) {name : FileName}
    (absent : d.files name = none) : e.files name = none := by
  rw [filesUnbound (crash.tidy tidy), crash.names]
  exact (filesUnbound tidy).mp absent

theorem present (crash : Crash d e) {name : FileName} {bytes : Bytes} {synced : Nat}
    (file : d.files name = some (bytes, synced)) :
    ∃ left, Leaves bytes synced left ∧ e.files name = some (left, left.length) := by
  obtain ⟨id, bound, content⟩ := filesBoundTo file
  obtain ⟨left, leaves, after⟩ := crash.files content
  refine ⟨left, leaves, filesBound ?_ after⟩
  rw [crash.names]
  exact bound

end Folder.Crash

def Folder.lost (d : Folder) : Folder :=
  { d with nodes := d.nodes.map fun node => match node.content with
      | .file bytes synced => ⟨.file (bytes.take synced) (bytes.take synced).length, none⟩
      | other => ⟨other, none⟩ }

theorem crashLost (d : Folder) : d.Crash d.lost where
  shape := rfl
  names := rfl
  files {id bytes synced} content := by
    refine ⟨bytes.take synced, .cut synced (Nat.le_refl synced), ?_⟩
    obtain ⟨node, there, same⟩ := Option.map_eq_some_iff.mp content
    simp [Folder.content?, Folder.lost, there, same]
  free id := by
    simp only [Folder.holder?, Folder.lost, List.getElem?_map]
    cases d.nodes[id]? with
    | none => rfl
    | some node =>
      simp only [Option.map_some]
      cases node.content <;> rfl

namespace Records

variable {l : Layout} {files : Files} {log : List Operation} {covered : Nat}

theorem shorten (r : Records l files log covered) {stale fresh : List Entry} {rest : Bytes}
    (staleAmong : stale <+: l.stale) (freshAmong : fresh <+: l.fresh)
    (among : stale ++ fresh <+: l.entries) (remnant : Remnant rest) {others : Files}
    (snapshot : others .snapshot = files .snapshot)
    (journal : (others .journal).getD ([], 0) =
      (written (stale ++ fresh) ++ rest, (written (stale ++ fresh) ++ rest).length)) :
    Records ⟨l.folded, stale, fresh, rest, (written (stale ++ fresh) ++ rest).length⟩ others
      (log.take (l.folded + fresh.length)) (l.folded + fresh.length) := by
  have total := r.length
  have shorter := freshAmong.length_le
  have folded := r.folded
  have length : (log.take (l.folded + fresh.length)).length = l.folded + fresh.length := by
    rw [List.length_take]
    omega
  have operations : fresh.map Entry.operation =
      (log.take (l.folded + fresh.length)).drop l.folded := by
    have first : fresh = l.fresh.take fresh.length := List.prefix_iff_eq_take.mp freshAmong
    rw [List.drop_take, Nat.add_sub_cancel_left, ← r.operations, ← List.map_take, ← first]
  exact {
    few := by
      have few := r.few
      omega
    fits := fun operation member => r.fits operation (List.mem_of_mem_take member)
    within := Nat.le_of_eq length.symm
    folded := by
      rw [length]
      exact Nat.le_add_right l.folded fresh.length
    snapshot := by
      have same : imageOf (log.take (l.folded + fresh.length)) l.folded = imageOf log l.folded := by
        rw [imageOf, imageOf, List.take_take, Nat.min_eq_left (Nat.le_add_right _ _)]
      rw [snapshot]
      simp only [same]
      exact r.snapshot
    journal := journal
    sound := fun e member => r.sound e (among.subset member)
    rising := by
      obtain ⟨lost, whole⟩ := among
      have rising := r.rising
      rw [← whole] at rising
      exact (backwardsAppend.mp rising).1
    stale := fun e member => r.stale e (staleAmong.subset member)
    numbers := by
      obtain ⟨lost, whole⟩ := freshAmong
      have numbers := r.numbers
      rw [← whole, List.map_append, eq_comm, List.range'_eq_append_iff] at numbers
      obtain ⟨count, _, front, _⟩ := numbers
      have counted := congrArg List.length front
      rw [List.length_map, List.length_range'] at counted
      rw [front, counted]
    operations := operations
    remnant := remnant
    covers := by
      intro _
      simp only [Nat.add_sub_cancel_left, List.take_length, List.length_append]
      exact Nat.le_add_right _ _ }

theorem kept {count : Nat} (r : Records l files log count) (all : log.length = count) :
    Records l files log log.length := by
  rw [all]
  exact r

theorem crash (r : Records l files log covered) {others : Files}
    (snapshot : others .snapshot = files .snapshot) {left : Bytes}
    (leaves : Leaves ((files .journal).getD ([], 0)).1 ((files .journal).getD ([], 0)).2 left)
    (journal : (others .journal).getD ([], 0) = (left, left.length)) :
    ∃ after kept, kept <+: log ∧ covered ≤ kept.length ∧ Records after others kept kept.length := by
  have total := r.length
  have folded := r.folded
  have within := r.within
  rw [r.journal] at leaves
  obtain ⟨front, rest, among, remnant, rfl, safe⟩ := leavesWritten r.sound r.remnant leaves
  have covers : l.folded < covered →
      l.stale ++ l.fresh.take (covered - l.folded) <+: front := by
    intro some
    apply safe _ _ (r.covers some)
    obtain ⟨more, whole⟩ := List.take_prefix (covered - l.folded) l.fresh
    exact ⟨more, by rw [List.append_assoc, whole]; rfl⟩
  obtain ⟨lost, split⟩ := among
  have taken (count : Nat) (few : count ≤ log.length) : (log.take count).length = count := by
    rw [List.length_take]
    omega
  rcases List.append_eq_append_iff.mp split with ⟨more, stale, _⟩ | ⟨fresh, whole, split⟩
  · -- the journal was cut among the entries that the snapshot holds
    have early : covered ≤ l.folded := by
      apply Nat.le_of_not_lt
      intro some
      have longer := (covers some).length_le
      have parts := congrArg List.length stale
      simp only [List.length_append, List.length_take] at longer parts
      omega
    have shorter := @shorten l files log covered r front [] rest ⟨more, stale.symm⟩
      List.nil_prefix ⟨lost, by rw [List.append_nil]; exact split⟩ remnant others snapshot
      (by rw [List.append_nil]; exact journal)
    refine ⟨_, _, List.take_prefix _ log, ?_, shorter.kept ?_⟩
    · rw [taken _ (by simpa using folded)]
      exact early
    · exact taken _ (by simpa using folded)
  · have freshAmong : fresh <+: l.fresh := ⟨lost, split.symm⟩
    have shorter := freshAmong.length_le
    have last := @shorten l files log covered r l.stale fresh rest (List.prefix_refl _)
      freshAmong ⟨lost, by rw [List.append_assoc, ← split]; rfl⟩ remnant others snapshot
      (by rw [← whole]; exact journal)
    refine ⟨_, _, List.take_prefix _ log, ?_, last.kept ?_⟩
    · rw [taken _ (by omega)]
      apply Nat.le_of_not_lt
      intro lostSome
      have longer := (covers (by omega)).length_le
      rw [whole] at longer
      simp only [List.length_append, List.length_take] at longer
      omega
    · exact taken _ (by omega)

end Records
end AddressPool
