import AddressPool.Proofs.Journal.Scan
import AddressPool.Proofs.Medium.Effect
import AddressPool.Proofs.Snapshot.RoundTrip
import AddressPool.Proofs.Table.Replay

/-! How the two files of a store hold the operations that were made, in order. A snapshot
has taken in the first of them. The journal has entries that the snapshot took in too, then
one entry for each later operation, then perhaps a remnant of a crash. -/
namespace AddressPool
open Journal Bytes

structure Layout where
  folded : Nat
  stale : List Entry
  fresh : List Entry
  tail : Bytes
  synced : Nat

namespace Layout

def entries (l : Layout) : List Entry := l.stale ++ l.fresh

end Layout

def imageOf (log : List Operation) (count : Nat) : Snapshot :=
  ⟨Table.empty.applyAll (log.take count), count⟩

structure Records (l : Layout) (files : Files) (log : List Operation) (covered : Nat) : Prop where
  few : log.length < space 8
  fits : ∀ operation ∈ log, operation.Fits
  within : covered ≤ log.length
  folded : l.folded ≤ log.length
  snapshot : files .snapshot = none ∧ l.folded = 0 ∨
    files .snapshot = some ((imageOf log l.folded).write, (imageOf log l.folded).write.length)
  journal : (files .journal).getD ([], 0) = (written l.entries ++ l.tail, l.synced)
  sound : ∀ e ∈ l.entries, e.Sound
  rising : backwards? 0 l.entries = none
  stale : ∀ e ∈ l.stale, e.lsn ≤ l.folded
  numbers : l.fresh.map Entry.lsn = List.range' (l.folded + 1) l.fresh.length
  operations : l.fresh.map Entry.operation = log.drop l.folded
  remnant : Remnant l.tail
  covers : l.folded < covered →
    (written (l.stale ++ l.fresh.take (covered - l.folded))).length ≤ l.synced

theorem ownerFits {a : Address} {owner : String} (fits : (Operation.reserve a owner).Fits) :
    (Utf8.encode owner).length < space 4 := by
  have limit : payloadLimit < space 4 := by decide
  have fits : (writeOperation (.reserve a owner)).length + 8 ≤ payloadLimit := fits
  simp only [writeOperation, writeText, List.length_append, littleEndianLength] at fits
  omega

theorem imageSound {log : List Operation} (few : log.length < space 8)
    (fits : ∀ operation ∈ log, operation.Fits) {count : Nat} (within : count ≤ log.length) :
    (imageOf log count).Sound where
  indexes := Table.inverseApplyAll Table.inverseEmpty (log.take count)
  owners r member := by
    have owned := (Table.memToList _ r.1 r.2).mp member
    rcases Table.ownerApplyAll owned with before | ⟨a, made⟩
    · simp at before
    · exact ownerFits (fits _ (List.mem_of_mem_take made))
  size := by
    have grown := Table.sizeApplyAll Table.empty (log.take count)
    have none : Table.empty.size = 0 := rfl
    have taken : (log.take count).length ≤ log.length := List.length_take_le' count log
    simp only [imageOf]
    omega
  lsn := Nat.lt_of_le_of_lt within few

theorem lsnAfterNumbered {base : Nat} {entries : List Entry}
    (numbers : entries.map Entry.lsn = List.range' (base + 1) entries.length) :
    lsnAfter base entries = base + entries.length := by
  induction entries generalizing base with
  | nil => rfl
  | cons e rest ih =>
    simp only [List.map_cons, List.length_cons, List.range'_succ, List.cons.injEq] at numbers
    obtain ⟨first, others⟩ := numbers
    rw [lsnAfterCons, first, ih others, List.length_cons]
    omega

theorem lsnAfterBound {last bound : Nat} {entries : List Entry} (before : last ≤ bound)
    (below : ∀ e ∈ entries, e.lsn ≤ bound) : lsnAfter last entries ≤ bound := by
  induction entries generalizing last with
  | nil => exact before
  | cons e rest ih =>
    rw [lsnAfterCons]
    exact ih (below e List.mem_cons_self) (fun other member => below other (List.mem_cons_of_mem e member))

namespace Records

variable {l : Layout} {files : Files} {log : List Operation} {covered : Nat}

theorem length (r : Records l files log covered) : l.folded + l.fresh.length = log.length := by
  have counted := congrArg List.length r.operations
  have folded := r.folded
  simp only [List.length_map, List.length_drop] at counted
  omega

theorem lsn (r : Records l files log covered) :
    max l.folded (lsnAfter 0 l.entries) = log.length := by
  have total := r.length
  have before : lsnAfter 0 l.stale ≤ l.folded := lsnAfterBound (Nat.zero_le l.folded) r.stale
  rw [Layout.entries, lsnAfterAppend]
  cases fresh : l.fresh with
  | nil =>
    rw [fresh, List.length_nil] at total
    rw [lsnAfterNil]
    omega
  | cons e rest =>
    have numbers := r.numbers
    rw [fresh] at numbers total
    have last := lsnAfterNumbered numbers
    rw [lsnAfterCons] at last ⊢
    omega

theorem newer (r : Records l files log covered) :
    l.entries.filter (fun e => l.folded < e.lsn) = l.fresh := by
  have old : l.stale.filter (fun e => l.folded < e.lsn) = [] := by
    rw [List.filter_eq_nil_iff]
    intro e member
    simpa using r.stale e member
  have new : l.fresh.filter (fun e => l.folded < e.lsn) = l.fresh := by
    rw [List.filter_eq_self]
    intro e member
    have numbered : e.lsn ∈ l.fresh.map Entry.lsn := List.mem_map_of_mem member
    rw [r.numbers, List.mem_range'_1] at numbered
    simp only [decide_eq_true_eq]
    omega
  rw [Layout.entries, List.filter_append, old, new, List.nil_append]

theorem replayed (r : Records l files log covered) :
    (imageOf log l.folded).table.applyAll
      ((l.entries.filter fun e => l.folded < e.lsn).map Entry.operation) =
      Table.empty.applyAll log := by
  rw [r.newer, r.operations, imageOf, ← Table.applyAllAppend, List.take_append_drop]

theorem elsewhere (r : Records l files log covered) {others : Files}
    (snapshot : others .snapshot = files .snapshot)
    (journal : (others .journal).getD ([], 0) = (files .journal).getD ([], 0)) :
    Records l others log covered :=
  { r with
    snapshot := by rw [snapshot]; exact r.snapshot
    journal := by rw [journal]; exact r.journal }

theorem less (r : Records l files log covered) {fewer : Nat} (le : fewer ≤ covered) :
    Records l files log fewer :=
  { r with
    within := Nat.le_trans le r.within
    covers := by
      intro some
      refine Nat.le_trans ?_ (r.covers (Nat.lt_of_lt_of_le some le))
      obtain ⟨more, added⟩ := List.take_prefix_take_left
        (l := l.fresh) (Nat.sub_le_sub_right le l.folded)
      simp only [← added, writtenAppend, List.length_append]
      omega }

theorem settle (r : Records l files log covered) (all : (written l.entries).length ≤ l.synced) :
    Records l files log log.length :=
  { r with
    within := Nat.le_refl log.length
    covers := by
      intro _
      rw [List.take_of_length_le (by have total := r.length; omega)]
      exact all }

theorem entriesLast (r : Records l files log covered) : lsnAfter 0 l.entries ≤ log.length := by
  have last := r.lsn
  omega

theorem append (r : Records l files log covered) (clean : l.tail = []) {e : Entry}
    (sound : e.Sound) (next : e.lsn = log.length + 1) :
    Records { l with fresh := l.fresh ++ [e] }
      (files.set .journal (some (written l.entries ++ e.bytes, l.synced)))
      (log ++ [e.operation]) covered where
  few := by
    have number := sound.lsn
    rw [List.length_append, List.length_singleton]
    omega
  fits operation member := by
    rcases List.mem_append.mp member with old | new
    · exact r.fits operation old
    · rw [List.mem_singleton.mp new]
      exact sound.fits
  within := by
    rw [List.length_append]
    exact Nat.le_add_right_of_le r.within
  folded := by
    rw [List.length_append]
    exact Nat.le_add_right_of_le r.folded
  snapshot := by
    have same : imageOf (log ++ [e.operation]) l.folded = imageOf log l.folded := by
      rw [imageOf, imageOf, List.take_append_of_le_length r.folded]
    rw [Files.setOther _ _ (by decide), same]
    exact r.snapshot
  journal := by
    rw [Files.setSame, Option.getD_some]
    simp [Layout.entries, clean]
  sound other member := by
    simp only [Layout.entries, ← List.append_assoc] at member
    rcases List.mem_append.mp member with old | new
    · exact r.sound other old
    · rw [List.mem_singleton.mp new]
      exact sound
  rising := by
    have last := r.entriesLast
    simp only [Layout.entries, ← List.append_assoc]
    refine backwardsAppend.mpr ⟨r.rising, ?_⟩
    rw [backwards?, if_neg, backwards?]
    simp only [Layout.entries] at last
    omega
  stale := r.stale
  numbers := by
    have total := r.length
    simp only [List.map_append, List.map_cons, List.map_nil, List.length_append,
      List.length_singleton, List.range'_concat, r.numbers, next]
    congr 2
    omega
  operations := by
    rw [List.map_append, r.operations, List.drop_append_of_le_length r.folded]
    rfl
  remnant := r.remnant
  covers some := by
    have total := r.length
    have within := r.within
    have inside : covered - l.folded ≤ l.fresh.length := by omega
    simp only [List.take_append_of_le_length inside]
    exact r.covers some

theorem retail (r : Records l files log covered) {tail : Bytes} {synced : Nat}
    (remnant : Remnant tail) (kept : l.synced ≤ synced ∨ (written l.entries).length ≤ synced) :
    Records { l with tail, synced }
      (files.set .journal (some (written l.entries ++ tail, synced))) log covered :=
  { r with
    snapshot := by
      rw [Files.setOther _ _ (by decide)]
      exact r.snapshot
    journal := by
      rw [Files.setSame]
      rfl
    remnant := remnant
    covers := by
      intro some
      rcases kept with more | all
      · exact Nat.le_trans (r.covers some) more
      · refine Nat.le_trans ?_ all
        obtain ⟨rest, whole⟩ := List.take_prefix (covered - l.folded) l.fresh
        have shorter := congrArg (fun entries => (written entries).length) whole
        simp only [Layout.entries, writtenAppend, List.length_append] at shorter ⊢
        omega }

theorem fold (r : Records l files log covered) :
    Records { l with folded := log.length, stale := l.entries, fresh := [] }
      (files.set .snapshot
        (some ((imageOf log log.length).write, (imageOf log log.length).write.length)))
      log log.length where
  few := r.few
  fits := r.fits
  within := Nat.le_refl log.length
  folded := Nat.le_refl log.length
  snapshot := .inr (Files.setSame files .snapshot _)
  journal := by
    rw [Files.setOther _ _ (by decide), r.journal]
    simp [Layout.entries]
  sound e member := r.sound e (by simpa [Layout.entries] using member)
  rising := by
    simpa [Layout.entries] using r.rising
  stale e member := by
    have total := r.length
    change e.lsn ≤ log.length
    rcases List.mem_append.mp member with old | new
    · exact Nat.le_trans (r.stale e old) r.folded
    · have numbered : e.lsn ∈ l.fresh.map Entry.lsn := List.mem_map_of_mem new
      rw [r.numbers, List.mem_range'_1] at numbered
      omega
  numbers := rfl
  operations := by
    rw [List.drop_length]
    rfl
  remnant := r.remnant
  covers some := absurd some (Nat.lt_irrefl log.length)

theorem emptied (r : Records l files log covered) (all : l.folded = log.length) :
    Records { l with stale := [], fresh := [], tail := [], synced := 0 }
      (files.set .journal (some ([], 0))) log log.length where
  few := r.few
  fits := r.fits
  within := Nat.le_refl log.length
  folded := r.folded
  snapshot := by
    rw [Files.setOther _ _ (by decide)]
    exact r.snapshot
  journal := by
    rw [Files.setSame]
    rfl
  sound _ member := absurd member List.not_mem_nil
  rising := rfl
  stale _ member := absurd member List.not_mem_nil
  numbers := rfl
  operations := by
    simp only [all, List.drop_length]
    rfl
  remnant := .nothing
  covers some := absurd some (by simp only [all]; exact Nat.lt_irrefl log.length)

end Records
end AddressPool
