import AddressPool.Proofs.Journal.Reading
import AddressPool.Proofs.Journal.Writer
import AddressPool.Proofs.Medium.Handles

/-! A writer's account of its journal: what the file holds now, and what a failing write or sync
takes it back to. Each call makes one of a few moves on the account, and after each of them the
file, its length, the number and the count are what the account says. -/
namespace AddressPool.Journal
open Bytes

structure Page where
  entries : List Entry
  lsn : Nat
  deriving DecidableEq, Repr

namespace Page

def add (p : Page) (e : Entry) : Page := ⟨p.entries ++ [e], e.lsn⟩

def emptied (p : Page) : Page := ⟨[], p.lsn⟩

def mark (p : Page) : Mark := ⟨(written p.entries).length, p.lsn, p.entries.length⟩

structure Valid (p : Page) : Prop where
  sound : ∀ e ∈ p.entries, e.Sound
  rising : (p.entries.map Entry.lsn).Pairwise (· < ·)
  below : ∀ e ∈ p.entries, e.lsn ≤ p.lsn

theorem Valid.emptied {p : Page} : p.emptied.Valid :=
  ⟨by simp [Page.emptied], .nil, by simp [Page.emptied]⟩

theorem Valid.add {p : Page} (valid : p.Valid) {e : Entry} (sound : e.Sound) (next : p.lsn < e.lsn) :
    (p.add e).Valid where
  sound other member := by
    rcases List.mem_append.mp member with old | new
    · exact valid.sound other old
    · rw [List.mem_singleton.mp new]
      exact sound
  rising := by
    rw [Page.add, List.map_append, List.pairwise_append]
    refine ⟨valid.rising, List.pairwise_singleton _ _, ?_⟩
    intro number old last new
    obtain ⟨other, member, rfl⟩ := List.mem_map.mp old
    rw [List.mem_singleton.mp new]
    exact Nat.lt_of_le_of_lt (valid.below other member) next
  below other member := by
    rcases List.mem_append.mp member with old | new
    · exact Nat.le_trans (valid.below other old) (Nat.le_of_lt next)
    · rw [List.mem_singleton.mp new]
      exact Nat.le_refl _

theorem markAdd (p : Page) (e : Entry) :
    (p.add e).mark = ⟨p.mark.length + e.bytes.length, e.lsn, p.mark.count + 1⟩ := by
  simp [mark, add]

theorem Valid.reads {p : Page} (valid : p.Valid) : readAll (written p.entries) = p.entries.map .ok := by
  obtain ⟨found, walked, listed, _⟩ := walkReads 0 (readsWritten valid.sound)
  have items : readAll (written p.entries) = found.map fun found => .ok found.1 := by
    simp only [readAll, walk, walked]
    exact List.append_nil _
  rw [items, ← listed, List.map_map]
  rfl

end Page

structure Account where
  now : Page
  kept : Page
  deriving DecidableEq, Repr

def Account.settled (p : Page) : Account := ⟨p, p⟩

inductive Action where
  | append (time : Nat) (operation : Operation)
  | sync
  | truncate
  deriving DecidableEq, Repr

abbrev Report := Action × Except Fault (Option Nat)

def Page.next (p : Page) (time : Nat) (operation : Operation) : Entry :=
  ⟨p.lsn + 1, operation, time % space 8⟩

inductive Account.Step (policy : SyncPolicy) (fate : Nat → Call → Outcome) (a : Account) :
    Report → Account → Prop where
  | appended {time : Nat} {operation : Operation} (fits : operation.Fits)
      (later : policy = .onUnlock) :
      Step policy fate a (.append time operation, .ok (some (a.now.lsn + 1)))
        ⟨a.now.add (a.now.next time operation), a.kept⟩
  | committed {time : Nat} {operation : Operation} (fits : operation.Fits)
      (every : policy = .everyWrite) :
      Step policy fate a (.append time operation, .ok (some (a.now.lsn + 1)))
        (.settled (a.now.add (a.now.next time operation)))
  | refused {time : Nat} {operation : Operation} (large : ¬ operation.Fits) :
      Step policy fate a (.append time operation, .error (.payload (.tooLarge
        (a.now.next time operation).payload.length payloadLimit))) a
  | undone {action : Action} (writes : action ≠ .truncate) {n kept : Nat} {call : Call}
      {fault : OsFault} (failing : call ∈ [.appendEntry, .syncEntries])
      (fails : fate n call = .fails fault kept) :
      Step policy fate a (action, .error (.os fault)) (.settled a.kept)
  | synced : Step policy fate a (.sync, .ok none) (.settled a.now)
  | emptied : Step policy fate a (.truncate, .ok none) (.settled a.now.emptied)

inductive Account.Runs (policy : SyncPolicy) (fate : Nat → Call → Outcome) :
    Account → List Report → Account → Prop where
  | done (a : Account) : Runs policy fate a [] a
  | more {a b c : Account} {report : Report} {reports : List Report}
      (first : Step policy fate a report b) (rest : Runs policy fate b reports c) :
      Runs policy fate a (report :: reports) c

theorem Account.Step.single {policy : SyncPolicy} {fate : Nat → Call → Outcome} {a b c : Account}
    {report : Report} (one : Step policy fate a report b) (other : Step policy fate a report c) :
    b = c := by
  cases one <;> cases other <;> simp_all

theorem Account.Runs.single {policy : SyncPolicy} {fate : Nat → Call → Outcome} {a b c : Account}
    {reports : List Report} (one : Runs policy fate a reports b)
    (other : Runs policy fate a reports c) : b = c := by
  induction one with
  | done a =>
    cases other
    rfl
  | more first _ ih =>
    cases other with
    | more second rest =>
      cases first.single second
      exact ih rest

def Writer.call (w : Writer) (d : Folder) : Action → Except Fault (Option Nat) × Writer × Folder
  | .append time operation =>
      let (result, w, d) := w.append operation { d with clock := time }
      (result.map some, w, d)
  | .sync =>
      let (result, w, d) := w.sync d
      (result.map fun _ => none, w, d)
  | .truncate =>
      let (result, w, d) := w.truncate d
      (result.map fun _ => none, w, d)

/-- A number has eight bytes, and an append needs one more of them. An emptying goes well. -/
def Writer.Allows (w : Writer) : Report → Prop
  | (.append _ _, _) => w.written.lsn + 1 < space 8
  | (.sync, _) => True
  | (.truncate, answer) => answer = .ok none

instance (w : Writer) : (report : Report) → Decidable (w.Allows report)
  | (.append _ _, _) => inferInstanceAs (Decidable (w.written.lsn + 1 < space 8))
  | (.sync, _) => isTrue trivial
  | (.truncate, answer) => inferInstanceAs (Decidable (answer = .ok none))

inductive Writer.Runs : Writer → Folder → List Report → Writer → Folder → Prop where
  | done (w : Writer) (d : Folder) : Runs w d [] w d
  | more {w v x : Writer} {d e f : Folder} {action : Action} {answer : Except Fault (Option Nat)}
      {reports : List Report} (allowed : w.Allows (action, answer))
      (made : w.call d action = (answer, v, e)) (rest : Runs v e reports x f) :
      Runs w d ((action, answer) :: reports) x f

structure Account.Tells (a : Account) (w : Writer) (d : Folder) : Prop where
  now : a.now.Valid
  kept : a.kept.Valid
  begins : a.kept.entries <+: a.now.entries
  file : ∃ synced, d.content? w.node = some (.file (written a.now.entries) synced)
  written : w.written = a.now.mark
  committed : w.committed = a.kept.mark
  settled : w.unsynced = 0 → a.now = a.kept

namespace Writer

variable {a : Account} {w v : Writer} {d e : Folder}

structure Onward (w v : Writer) (d e : Folder) : Prop where
  policy : v.policy = w.policy
  node : v.node = w.node
  fate : e.fate = d.fate
  names : e.names = d.names
  shape : e.shape = d.shape

theorem Onward.refl (w : Writer) (d : Folder) : Onward w w d d := ⟨rfl, rfl, rfl, rfl, rfl⟩

theorem Onward.trans {x : Writer} {f : Folder} (first : Onward w v d e) (second : Onward v x e f) :
    Onward w x d f where
  policy := second.policy.trans first.policy
  node := second.node.trans first.node
  fate := second.fate.trans first.fate
  names := second.names.trans first.names
  shape := second.shape.trans first.shape

theorem Onward.of {id synced : Nat} {bytes : Bytes} (rewrites : d.Rewrites e id bytes synced)
    (policy : v.policy = w.policy) (node : v.node = w.node) : Onward w v d e :=
  ⟨policy, node, rewrites.fate, rewrites.names, rewrites.shape⟩

theorem settledTells {p : Page} {synced : Nat} (valid : p.Valid)
    (content : d.content? w.node = some (.file (Journal.written p.entries) synced))
    (written : w.written = p.mark) (committed : w.committed = p.mark) :
    (Account.settled p).Tells w d :=
  ⟨valid, valid, List.prefix_refl _, ⟨synced, content⟩, written, committed, fun _ => rfl⟩

theorem rollBackTells {p : Page} (valid : p.Valid) (committed : w.committed = p.mark)
    {rest : Bytes} {synced : Nat}
    (content : d.content? w.node = some (.file (Journal.written p.entries ++ rest) synced))
    (mends : d.ObeysIn [.rollBack, .syncRollBack]) :
    ∃ v e, w.rollBack d = (v, e) ∧ Onward w v d e ∧ (Account.settled p).Tells v e := by
  rcases Folder.cuts content .rollBack .syncRollBack w.committed.length with
    ⟨e, cut, rewrites⟩ | ⟨fault, e, _, fails⟩
  · have inside : w.committed.length ≤ (Journal.written p.entries ++ rest).length := by
      rw [committed, List.length_append]
      exact Nat.le_add_right _ _
    have front : (Journal.written p.entries ++ rest).take w.committed.length =
        Journal.written p.entries := by
      rw [committed]
      exact List.take_left
    rw [Folder.resizeShort inside, front] at rewrites
    exact ⟨{ w with written := w.committed, unsynced := 0 }, e, by simp only [rollBack, cut],
      .of rewrites rfl rfl, settledTells valid rewrites.content committed committed⟩
  · exact absurd mends fails

theorem syncTells (tells : a.Tells w d) (mends : d.ObeysIn [.rollBack, .syncRollBack]) :
    (∃ v e, w.sync d = (.ok (), v, e) ∧ Onward w v d e ∧ (Account.settled a.now).Tells v e) ∨
    ∃ n fault kept v e, d.fate n .syncEntries = .fails fault kept ∧
      w.sync d = (.error (.os fault), v, e) ∧ Onward w v d e ∧
      (Account.settled a.kept).Tells v e := by
  obtain ⟨synced, content⟩ := tells.file
  by_cases nothing : w.unsynced = 0
  · have same := tells.settled nothing
    exact .inl ⟨w, d, by simp only [sync, if_pos nothing], .refl w d,
      settledTells tells.now content tells.written (same ▸ tells.committed)⟩
  · cases syncing : d.fate d.calls .syncEntries with
    | done =>
      obtain ⟨e, flushed, rewrites⟩ := Folder.syncs content syncing
      exact .inl ⟨{ w with unsynced := 0, committed := w.written }, e,
        by simp only [sync, if_neg nothing, flushed], .of rewrites rfl rfl,
        settledTells tells.now rewrites.content tells.written tells.written⟩
    | fails fault kept =>
      obtain ⟨e, failed, rewrites⟩ := Folder.syncsNothing content syncing
      obtain ⟨rest, more⟩ := tells.begins
      have grown := rewrites.content
      rw [← more, writtenAppend] at grown
      obtain ⟨v, f, back, onward, after⟩ :=
        rollBackTells tells.kept tells.committed grown (mends.same rewrites.fate)
      exact .inr ⟨_, fault, kept, v, f, syncing, by simp only [sync, if_neg nothing, failed, back],
        .trans (.of rewrites rfl rfl) onward, after⟩

theorem grownTells (tells : a.Tells w d) {e : Entry} (sound : e.Sound) (next : a.now.lsn < e.lsn)
    {f : Folder} {synced : Nat}
    (rewrites : Folder.Rewrites d f w.node (Journal.written a.now.entries ++ e.bytes) synced) :
    Account.Tells ⟨a.now.add e, a.kept⟩ (w.grown e) f where
  now := tells.now.add sound next
  kept := tells.kept
  begins := tells.begins.trans (List.prefix_append _ _)
  file := by
    refine ⟨synced, rewrites.content.trans ?_⟩
    simp [Page.add, Journal.written]
  written := by
    rw [Page.markAdd, grown, tells.written]
  committed := tells.committed
  settled nothing := absurd nothing (Nat.succ_ne_zero _)

theorem freshTells (tells : a.Tells w d) (room : a.now.lsn + 1 < space 8)
    (operation : Operation) (time : Nat) : w.fresh operation time = a.now.next time operation := by
  have number : w.written.lsn = a.now.lsn := by
    rw [tells.written]
    rfl
  rw [fresh, nextFew (number ▸ room), number]
  rfl

theorem fittingTells (tells : a.Tells w d) (mends : d.ObeysIn [.rollBack, .syncRollBack])
    (room : a.now.lsn + 1 < space 8) {operation : Operation} (fits : operation.Fits) :
    ∃ result v e b, w.append operation d = (result, v, e) ∧ Onward w v d e ∧ b.Tells v e ∧
      Account.Step w.policy d.fate a (.append d.clock operation, result.map some) b := by
  obtain ⟨synced, content⟩ := tells.file
  have sound := freshSound fits d.clock (w := w)
  have same := freshTells tells room operation d.clock
  have number : w.next = a.now.lsn + 1 := congrArg Entry.lsn same
  cases adding : d.fate d.calls .appendEntry with
  | fails fault kept =>
    obtain ⟨e, failed, rewrites⟩ :=
      Folder.appendsPart content adding (w.fresh operation d.clock).bytes
    obtain ⟨rest, more⟩ := tells.begins
    have torn := rewrites.content
    rw [← more, writtenAppend, List.append_assoc] at torn
    obtain ⟨v, f, back, onward, after⟩ :=
      rollBackTells tells.kept tells.committed torn (mends.same rewrites.fate)
    have answer := appendFailed fits failed
    rw [back] at answer
    exact ⟨_, v, f, _, answer, .trans (.of rewrites rfl rfl) onward, after,
      .undone (by simp) List.mem_cons_self adding⟩
  | done =>
    obtain ⟨e, added, rewrites⟩ :=
      Folder.appendsAll content adding (w.fresh operation d.clock).bytes
    have whole := grownTells tells sound (by rw [same]; exact Nat.lt_succ_self _) rewrites
    have wrote : Onward w (w.grown (w.fresh operation d.clock)) d e := .of rewrites rfl rfl
    cases policy : w.policy with
    | onUnlock =>
      refine ⟨_, _, e, _, appendLater fits added policy, wrote, whole, ?_⟩
      rw [same, number]
      exact .appended fits rfl
    | everyWrite =>
      rcases syncTells whole (mends.same rewrites.fate) with
        ⟨v, f, flushed, onward, after⟩ | ⟨n, fault, kept, v, f, fails, failed, onward, after⟩
      · refine ⟨_, v, f, _, appendNow fits added policy flushed, wrote.trans onward, after, ?_⟩
        rw [same, number]
        exact .committed fits rfl
      · rw [rewrites.fate] at fails
        exact ⟨_, v, f, _, appendNow fits added policy failed, wrote.trans onward, after,
          .undone (by simp) (by simp) fails⟩

theorem appendTells (tells : a.Tells w d) (mends : d.ObeysIn [.rollBack, .syncRollBack])
    (room : w.written.lsn + 1 < space 8) (operation : Operation) :
    ∃ result v e b, w.append operation d = (result, v, e) ∧ Onward w v d e ∧ b.Tells v e ∧
      Account.Step w.policy d.fate a (.append d.clock operation, result.map some) b := by
  by_cases fits : operation.Fits
  · rw [tells.written] at room
    exact fittingTells tells mends room fits
  · have payload : (a.now.next d.clock operation).payload.length =
        (writeOperation operation).length + 8 := Entry.payloadLength _
    refine ⟨_, w, d, a, appendTooLarge w d fits, .refl w d, tells, ?_⟩
    rw [← payload]
    exact .refused fits

theorem truncateTells (tells : a.Tells w d) :
    (∃ v e, w.truncate d = (.ok (), v, e) ∧ Onward w v d e ∧
      (Account.settled a.now.emptied).Tells v e) ∨
    ∃ fault v e, w.truncate d = (.error fault, v, e) := by
  obtain ⟨synced, content⟩ := tells.file
  rcases Folder.cuts content .emptyJournal .syncEmptied 0 with
    ⟨e, cut, rewrites⟩ | ⟨fault, e, failed, _⟩
  · rw [Folder.resizeShort (Nat.zero_le _), List.take_zero] at rewrites
    have mark : (⟨0, w.written.lsn, 0⟩ : Mark) = a.now.emptied.mark := by
      rw [tells.written]
      rfl
    exact .inl ⟨⟨w.node, w.policy, ⟨0, w.written.lsn, 0⟩, 0, ⟨0, w.written.lsn, 0⟩⟩, e,
      by simp only [truncate, cut], .of rewrites rfl rfl,
      settledTells .emptied rewrites.content mark mark⟩
  · exact .inr ⟨.os fault, w, e, by simp only [truncate, failed]⟩

theorem callTells (tells : a.Tells w d) (mends : d.ObeysIn [.rollBack, .syncRollBack])
    {action : Action} {answer : Except Fault (Option Nat)} (allowed : w.Allows (action, answer))
    (made : w.call d action = (answer, v, e)) :
    ∃ b, Account.Step w.policy d.fate a (action, answer) b ∧ Onward w v d e ∧ b.Tells v e := by
  cases action with
  | append time operation =>
    have timed : a.Tells w { d with clock := time } := { tells with file := tells.file }
    obtain ⟨_, _, _, b, done, onward, after, step⟩ := appendTells timed mends allowed operation
    simp only [call, done] at made
    cases made
    exact ⟨b, step, ⟨onward.policy, onward.node, onward.fate, onward.names, onward.shape⟩, after⟩
  | sync =>
    rcases syncTells tells mends with
      ⟨_, _, done, onward, after⟩ | ⟨n, fault, kept, _, _, fails, failed, onward, after⟩
    · simp only [call, done] at made
      cases made
      exact ⟨_, .synced, onward, after⟩
    · simp only [call, failed] at made
      cases made
      exact ⟨_, .undone (by simp) (by simp) fails, onward, after⟩
  | truncate =>
    rcases truncateTells tells with ⟨_, _, done, onward, after⟩ | ⟨fault, _, _, failed⟩
    · simp only [call, done] at made
      cases made
      exact ⟨_, .emptied, onward, after⟩
    · simp only [call, failed] at made
      cases made
      cases allowed

theorem runTells {reports : List Report} (tells : a.Tells w d)
    (mends : d.ObeysIn [.rollBack, .syncRollBack]) (runs : w.Runs d reports v e) :
    ∃ b, Account.Runs w.policy d.fate a reports b ∧ Onward w v d e ∧ b.Tells v e := by
  -- over the calls, each of which hands the account on to the next one
  induction runs generalizing a with
  | done w d => exact ⟨a, .done a, .refl w d, tells⟩
  | more allowed made rest ih =>
    obtain ⟨b, step, onward, after⟩ := callTells tells mends allowed made
    obtain ⟨c, runs, further, last⟩ := ih after (mends.same onward.fate)
    rw [onward.policy, onward.fate] at runs
    exact ⟨c, .more step runs, onward.trans further, last⟩

theorem openedTells {policy : SyncPolicy} {p : Page} (valid : p.Valid)
    (file : d.Filed .journal (Journal.written p.entries))
    (opened : ofFolder policy p.lsn p.entries.length d = (.ok w, e)) :
    w.policy = policy ∧ e.find .journal = .ok (some w.node) ∧ e.fate = d.fate ∧
      (Account.settled p).Tells w e := by
  obtain ⟨id, synced, found, content⟩ := file
  rcases Folder.opens .openJournal found content with reached | ⟨fault, failed⟩
  · have size : d.asked.lengthOf id = (Journal.written p.entries).length := by
      have there : d.asked.content? id = _ := content
      simp only [Folder.lengthOf, there]
    simp only [ofFolder, reached, size] at opened
    cases opened
    exact ⟨rfl, found, rfl, settledTells valid content rfl rfl⟩
  · simp only [ofFolder, failed] at opened
    cases opened

theorem accountExact {policy : SyncPolicy} {entries : List Entry} {pieces : List Bytes} {lsn : Nat}
    {reports : List Report} {f : Folder}
    (serialized : entries.mapM Entry.write = .ok pieces)
    (words : ∀ x ∈ entries, x.lsn < space 8 ∧ x.time < space 8)
    (rising : (entries.map Entry.lsn).Pairwise (· < ·)) (below : ∀ x ∈ entries, x.lsn ≤ lsn)
    (file : d.Filed .journal pieces.flatten)
    (opened : ofFolder policy lsn entries.length d = (.ok w, e))
    (mends : d.ObeysIn [.rollBack, .syncRollBack]) (runs : w.Runs e reports v f) :
    ∃ account pieces, Account.Runs policy d.fate (.settled ⟨entries, lsn⟩) reports account ∧
      account.now.entries.mapM Entry.write = .ok pieces ∧ f.Filed .journal pieces.flatten ∧
      (account.now.entries.map Entry.lsn).Pairwise (· < ·) ∧
      v.written = ⟨pieces.flatten.length, account.now.lsn, account.now.entries.length⟩ ∧
      readAll pieces.flatten = account.now.entries.map .ok := by
  obtain ⟨fits, rfl⟩ := serializedIff.mp serialized
  have valid : Page.Valid ⟨entries, lsn⟩ :=
    ⟨fun x member => ⟨fits x member, (words x member).1, (words x member).2⟩, rising, below⟩
  obtain ⟨rfl, found, fate, begun⟩ := openedTells valid file opened
  obtain ⟨account, moves, onward, tells⟩ := runTells begun (mends.same fate) runs
  obtain ⟨synced, content⟩ := tells.file
  have there : f.find .journal = .ok (some v.node) := by
    simp only [Folder.find, onward.shape, onward.names, onward.node]
    exact found
  have kept : ∀ x ∈ account.now.entries, x.operation.Fits :=
    fun x member => (tells.now.sound x member).fits
  rw [fate] at moves
  exact ⟨account, account.now.entries.map Entry.bytes, moves, serializedIff.mpr ⟨kept, rfl⟩,
    ⟨v.node, synced, there, content⟩, tells.now.rising, tells.written, tells.now.reads⟩

def opening : List Entry := [⟨3, .reserve (.wrap .v4 5) "pod", 10⟩]

def filling : Folder :=
  { Folder.only .journal (Journal.written opening) with
    fate := fun n call => if n = 2 ∧ call = .appendEntry then .fails .noSpace 5 else .done }

theorem fillingMends : filling.ObeysIn [.rollBack, .syncRollBack] := by
  intro n call member
  refine if_neg fun both => ?_
  rw [both.2] at member
  simp at member

def early : Entry := ⟨6, .release "pod" [.wrap .v4 5], 20⟩

def late : Entry := ⟨6, .reserve (.wrap .v4 7) "job", 40⟩

def filled : List Report :=
  [(.append 20 early.operation, .ok (some 6)),
    (.append 30 (.reserve (.wrap .v4 6) "pod"), .error (.os .noSpace)),
    (.append 40 late.operation, .ok (some 6)), (.sync, .ok none)]

set_option maxRecDepth 1000 in
theorem filledRuns :
    ∃ w e v f, ofFolder .onUnlock 5 opening.length filling = (.ok w, e) ∧ w.Runs e filled v f := by
  let file (entries : List Entry) (synced clock calls : Nat) : Folder :=
    { filling with nodes := [⟨.file (Journal.written entries) synced, none⟩], clock, calls }
  let w : Writer := ⟨0, .onUnlock, ⟨51, 5, 1⟩, 0, ⟨51, 5, 1⟩⟩
  have begun : ofFolder .onUnlock 5 opening.length filling = (.ok w, filling.asked) := rfl
  have added : w.call filling.asked (.append 20 early.operation) =
    (.ok (some 6), w.grown early, file (opening ++ [early]) 51 20 2) := rfl
  have undone : (w.grown early).call (file (opening ++ [early]) 51 20 2)
      (.append 30 (.reserve (.wrap .v4 6) "pod")) =
    (.error (.os .noSpace), w, file opening 51 30 5) := rfl
  have again : w.call (file opening 51 30 5) (.append 40 late.operation) =
    (.ok (some 6), w.grown late, file (opening ++ [late]) 51 40 6) := rfl
  have synced : (w.grown late).call (file (opening ++ [late]) 51 40 6) .sync =
    (.ok none, { w with written := ⟨102, 6, 2⟩, committed := ⟨102, 6, 2⟩ },
      file (opening ++ [late]) 102 40 7) := rfl
  exact ⟨w, _, _, _, begun, .more (by decide) added (.more (by decide) undone
    (.more (by decide) again (.more trivial synced (.done _ _))))⟩

theorem filledAccount :
    Account.Runs .onUnlock filling.fate (.settled ⟨opening, 5⟩) filled
      (.settled ⟨opening ++ [late], 6⟩) := by
  have fails : filling.fate 2 .appendEntry = .fails .noSpace 5 := rfl
  exact .more (.appended (by decide) rfl) (.more (.undone (by simp) List.mem_cons_self fails)
    (.more (.appended (by decide) rfl) (.more .synced (.done _))))

theorem failureUndone :
    ∃ w e v f, (opening.mapM Entry.write = .ok (opening.map Entry.bytes) ∧
        (∀ x ∈ opening, x.lsn < space 8 ∧ x.time < space 8) ∧
        (opening.map Entry.lsn).Pairwise (· < ·) ∧ (∀ x ∈ opening, x.lsn ≤ 5) ∧
        filling.Filed .journal (opening.map Entry.bytes).flatten ∧
        ofFolder .onUnlock 5 opening.length filling = (.ok w, e) ∧
        filling.ObeysIn [.rollBack, .syncRollBack] ∧ w.Runs e filled v f) ∧
      f.Filed .journal (Journal.written (opening ++ [late])) ∧
      v.written = ⟨(Journal.written (opening ++ [late])).length, 6, 2⟩ ∧
      readAll (Journal.written (opening ++ [late])) = (opening ++ [late]).map .ok := by
  obtain ⟨w, e, v, f, opened, runs⟩ := filledRuns
  have serialized : opening.mapM Entry.write = .ok (opening.map Entry.bytes) :=
    serializedIff.mpr ⟨by decide, rfl⟩
  have words : ∀ x ∈ opening, x.lsn < space 8 ∧ x.time < space 8 := by decide
  have rising : (opening.map Entry.lsn).Pairwise (· < ·) := by decide
  have below : ∀ x ∈ opening, x.lsn ≤ 5 := by decide
  have file : filling.Filed .journal (opening.map Entry.bytes).flatten :=
    Folder.onlyFiled .journal _
  obtain ⟨account, pieces, moves, lasting, filed, _, mark, reads⟩ :=
    accountExact serialized words rising below file opened fillingMends runs
  cases moves.single filledAccount
  obtain ⟨_, rfl⟩ := serializedIff.mp lasting
  exact ⟨w, e, v, f, ⟨serialized, words, rising, below, file, opened, fillingMends, runs⟩,
    filed, mark, reads⟩

end Writer
end AddressPool.Journal
