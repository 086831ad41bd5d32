import AddressPool.Proofs.Medium.Effect

/-! What each call does to the files of a tidy folder when it is done, and what when it
fails. A folder obeys when no call fails. It is halting when everything fails from the first
failure on and nothing more is written, as after a crash. -/
namespace AddressPool.Folder

def Obeys (d : Folder) : Prop := ∀ n call, d.fate n call = .done

def Halting (d : Folder) : Prop :=
  ∀ {n : Nat} {call : Call} {fault : OsFault} {kept : Nat}, d.fate n call = .fails fault kept →
    ∀ later next, n < later → ∃ fault, d.fate later next = .fails fault 0

def ObeysIn (d : Folder) (calls : List Call) : Prop := ∀ n, ∀ call ∈ calls, d.fate n call = .done

def Halted (d : Folder) : Prop :=
  ∀ later next, d.calls ≤ later → ∃ fault, d.fate later next = .fails fault 0

theorem haltedFails {d : Folder} (halted : d.Halted) (call : Call) :
    ∃ fault, d.fate d.calls call = .fails fault 0 :=
  halted d.calls call (Nat.le_refl d.calls)

theorem Obeys.halting {d : Folder} (obeys : Obeys d) : Halting d := by
  intro n call fault kept fails
  rw [obeys n call] at fails
  contradiction

theorem Obeys.notHalted {d : Folder} (obeys : Obeys d) : ¬ Halted d := by
  intro halted
  obtain ⟨fault, fails⟩ := halted d.calls .makeFolder (Nat.le_refl d.calls)
  rw [obeys] at fails
  contradiction

theorem Obeys.same {d e : Folder} (obeys : Obeys d) (fate : e.fate = d.fate) : Obeys e := by
  intro n call
  rw [fate]
  exact obeys n call

theorem Obeys.obeysIn {d : Folder} (obeys : Obeys d) (calls : List Call) : ObeysIn d calls :=
  fun n call _ => obeys n call

theorem ObeysIn.same {d e : Folder} {calls : List Call} (obeys : ObeysIn d calls)
    (fate : e.fate = d.fate) : ObeysIn e calls := by
  intro n call member
  rw [fate]
  exact obeys n call member

theorem ObeysIn.fewer {d : Folder} {calls fewer : List Call} (obeys : ObeysIn d calls)
    (inside : ∀ call ∈ fewer, call ∈ calls) : ObeysIn d fewer :=
  fun n call member => obeys n call (inside call member)

theorem notObeysIn {d : Folder} {calls : List Call} {call : Call} {fault : OsFault} {kept : Nat}
    (fails : d.fate d.calls call = .fails fault kept) (member : call ∈ calls) :
    ¬ ObeysIn d calls := by
  intro obeys
  rw [obeys _ call member] at fails
  contradiction

theorem Effect.halting {d e : Folder} {files : Files} (effect : Effect d e files)
    (halting : Halting d) : Halting e := by
  intro n call fault kept fails
  rw [effect.fate] at fails ⊢
  exact halting fails

theorem Effect.halted {d e : Folder} {files : Files} (effect : Effect d e files)
    (halted : Halted d) : Halted e := by
  intro later next past
  rw [effect.fate]
  exact halted later next (Nat.le_trans effect.calls past)

theorem Effect.halts {d e : Folder} {files : Files} (effect : Effect d e files)
    (halting : Halting d) {call : Call} {fault : OsFault} {kept : Nat}
    (fails : d.fate d.calls call = .fails fault kept) (past : d.calls < e.calls) : Halted e := by
  intro later next after
  rw [effect.fate]
  exact halting fails later next (Nat.lt_of_lt_of_le past after)

section Calls

variable {d : Folder} (tidy : Tidy d) {name : FileName} {id : Nat} {bytes : Bytes} {synced : Nat}
variable (bound : d.names name = some id) (file : d.files name = some (bytes, synced))
include tidy bound file

theorem appendDone {call : Call} (done : d.fate d.calls call = .done) (more : Bytes) :
    ∃ e, d.append call id more = (.ok (), e) ∧
      Effect d e (d.files.set name (some (bytes ++ more, synced))) := by
  refine ⟨_, ?_, setEffect tidy bound (bytes ++ more) synced⟩
  simp only [append, askDone done, boundContent tidy bound file]

theorem appendFails {call : Call} {fault : OsFault} {kept : Nat}
    (fails : d.fate d.calls call = .fails fault kept) (more : Bytes) :
    ∃ e, d.append call id more = (.error fault, e) ∧
      Effect d e (d.files.set name (some (bytes ++ more.take kept, synced))) ∧
      d.calls < e.calls := by
  refine ⟨_, ?_, setEffect tidy bound (bytes ++ more.take kept) synced, Nat.lt_succ_self d.calls⟩
  simp only [append, askFails fails, boundContent tidy bound file]

theorem syncDone {call : Call} (done : d.fate d.calls call = .done) :
    ∃ e, d.sync call id = (.ok (), e) ∧
      Effect d e (d.files.set name (some (bytes, bytes.length))) := by
  refine ⟨_, ?_, setEffect tidy bound bytes bytes.length⟩
  simp only [sync, askDone done, boundContent tidy bound file]

theorem setLengthDone {call : Call} (done : d.fate d.calls call = .done) (length : Nat) :
    ∃ e, d.setLength call id length = (.ok (), e) ∧
      Effect d e (d.files.set name (some (resize bytes length, min synced length))) := by
  refine ⟨_, ?_, setEffect tidy bound (resize bytes length) (min synced length)⟩
  simp only [setLength, askDone done, boundContent tidy bound file]

end Calls

theorem appendNames (d : Folder) (call : Call) (id : Nat) (more : Bytes) :
    (d.append call id more).2.names = d.names := by
  have asked : (d.ask call).2.names = d.names := rfl
  simp only [append]
  split <;> simp_all [setContent]

theorem syncFails {d : Folder} (tidy : Tidy d) {call : Call} {fault : OsFault} {kept : Nat}
    (fails : d.fate d.calls call = .fails fault kept) (id : Nat) :
    ∃ e, d.sync call id = (.error fault, e) ∧ Effect d e d.files ∧ d.calls < e.calls :=
  ⟨d.asked, by simp only [sync, askFails fails], askedEffect tidy, Nat.lt_succ_self d.calls⟩

theorem setLengthFails {d : Folder} (tidy : Tidy d) {call : Call} {fault : OsFault} {kept : Nat}
    (fails : d.fate d.calls call = .fails fault kept) (id length : Nat) :
    ∃ e, d.setLength call id length = (.error fault, e) ∧ Effect d e d.files ∧ d.calls < e.calls :=
  ⟨d.asked, by simp only [setLength, askFails fails], askedEffect tidy, Nat.lt_succ_self d.calls⟩

theorem cutToSpec {d : Folder} (tidy : Tidy d) {id : Nat} {bytes : Bytes} {synced : Nat}
    (bound : d.names .journal = some id) (file : d.files .journal = some (bytes, synced))
    (cut flush : Call) (length : Nat) :
    (∃ e, d.cutTo cut flush id length = (.ok (), e) ∧
      Effect d e (d.files.set .journal (some (resize bytes length, (resize bytes length).length)))) ∨
    ∃ fault e, d.cutTo cut flush id length = (.error fault, e) ∧ ¬ d.ObeysIn [cut, flush] ∧
      (d.Halting → e.Halted) ∧
      (Effect d e d.files ∨
        Effect d e (d.files.set .journal (some (resize bytes length, min synced length)))) := by
  cases cutting : d.fate d.calls cut with
  | fails fault kept =>
    obtain ⟨e, failed, effect, past⟩ := setLengthFails tidy cutting id length
    exact .inr ⟨fault, e, by simp only [cutTo, failed], notObeysIn cutting List.mem_cons_self,
      fun halting => effect.halts halting cutting past, .inl effect⟩
  | done =>
    obtain ⟨e, shortened, effect⟩ := setLengthDone tidy bound file cutting length
    have there : e.files .journal = some (resize bytes length, min synced length) := by
      rw [effect.files, Files.setSame]
    cases flushing : e.fate e.calls flush with
    | fails fault kept =>
      obtain ⟨f, failed, next, past⟩ := syncFails effect.tidy flushing id
      have halts (halting : d.Halting) : f.Halted :=
        next.halts (effect.halting halting) flushing past
      rw [effect.files] at next
      refine .inr ⟨fault, f, by simp only [cutTo, shortened, failed], ?_, halts,
        .inr (effect.trans next)⟩
      intro obeys
      exact notObeysIn flushing (by simp) (obeys.same effect.fate)
    | done =>
      obtain ⟨f, synced, next⟩ := syncDone effect.tidy (effect.journal id bound) there flushing
      rw [effect.files, Files.setTwice] at next
      exact .inl ⟨f, by simp only [cutTo, shortened, synced], effect.trans next⟩

theorem openFails {d : Folder} (tidy : Tidy d) {call : Call} {fault : OsFault} {kept : Nat}
    (fails : d.fate d.calls call = .fails fault kept) (name : FileName) :
    ∃ e, d.openNode call name = (.error fault, e) ∧ Effect d e d.files ∧ d.calls < e.calls :=
  ⟨d.asked, by simp only [openNode, askFails fails], askedEffect tidy, Nat.lt_succ_self d.calls⟩

theorem openDone {d : Folder} (tidy : Tidy d) {call : Call} (done : d.fate d.calls call = .done)
    {name : FileName} (other : name ≠ .lock) :
    ∃ id e, d.openNode call name = (.ok id, e) ∧ e.names name = some id ∧
      Effect d e (d.files.set name (some ((d.files name).getD ([], 0)))) := by
  have still := askedEffect tidy
  have shape : d.asked.shape = .folder := tidy.shape
  cases bound : d.names name with
  | none =>
    have unbound : d.asked.names name = none := bound
    refine ⟨_, (d.asked.create name (.file [] 0)).2, ?_, if_pos rfl, ?_⟩
    · simp only [openNode, askDone done, shape, unbound]
      rfl
    · have absent : d.files name = none := (filesUnbound tidy).mpr bound
      refine ⟨createTidy still.tidy name [] 0, ?_, ?_, if_neg (Ne.symm other), ?_, rfl, rfl, rfl,
        Nat.le_succ d.calls⟩
      · rw [createFiles still.tidy unbound, absent]
        rfl
      · intro id there
        change (if FileName.journal = name then _ else d.names .journal) = some id
        rw [if_neg]
        · exact there
        · intro same
          rw [same, bound] at there
          contradiction
      · exact createHolder name _
  | some id =>
    obtain ⟨bytes, synced, content⟩ := tidy.plain bound
    refine ⟨id, d.asked, ?_, bound, ?_⟩
    · have there : d.asked.names name = some id := bound
      have plain : d.asked.content? id = some (.file bytes synced) := content
      simp only [openNode, askDone done, shape, there, plain]
    · have kept : d.files.set name (some ((d.files name).getD ([], 0))) = d.files := by
        funext place
        by_cases same : place = name
        · subst same
          rw [Files.setSame, filesBound bound content]
          rfl
        · exact Files.setOther _ _ same
      rw [kept]
      exact still

theorem createTemporaryFails {d : Folder} (tidy : Tidy d) {fault : OsFault} {kept : Nat}
    (fails : d.fate d.calls .createTemporary = .fails fault kept) :
    ∃ e, d.createTemporary = (.error fault, e) ∧ Effect d e d.files ∧ d.calls < e.calls := by
  obtain ⟨e, opened, effect, past⟩ := openFails tidy fails .temporary
  exact ⟨e, by simp only [createTemporary, opened], effect, past⟩

theorem createTemporaryDone {d : Folder} (tidy : Tidy d)
    (done : d.fate d.calls .createTemporary = .done) :
    ∃ id e, d.createTemporary = (.ok id, e) ∧ e.names .temporary = some id ∧
      Effect d e (d.files.set .temporary (some ([], 0))) := by
  obtain ⟨id, e, opened, bound, effect⟩ := 
    openDone tidy done (show FileName.temporary ≠ .lock by decide)
  obtain ⟨bytes, synced, content⟩ := effect.tidy.plain bound
  refine ⟨id, e.setContent id (.file [] 0), ?_, bound, ?_⟩
  · simp only [createTemporary, opened, content]
  · refine ⟨setTidy effect.tidy id [] 0, ?_, effect.journal, effect.lock, ?_, effect.handles,
      effect.clock, effect.fate, effect.calls⟩
    · rw [setFiles effect.tidy bound, effect.files, Files.setTwice]
    · intro other
      rw [holderSet, effect.holders]

theorem replaceFails {d : Folder} (tidy : Tidy d) {fault : OsFault} {kept : Nat}
    (fails : d.fate d.calls .replaceSnapshot = .fails fault kept) :
    ∃ e, d.replaceSnapshot = (.error fault, e) ∧ Effect d e d.files ∧ d.calls < e.calls :=
  ⟨d.asked, by simp only [replaceSnapshot, askFails fails], askedEffect tidy, Nat.lt_succ_self d.calls⟩

theorem replaceDone {d : Folder} (tidy : Tidy d)
    (done : d.fate d.calls .replaceSnapshot = .done) {bytes : Bytes} {synced : Nat}
    (file : d.files .temporary = some (bytes, synced)) :
    ∃ e, d.replaceSnapshot = (.ok (), e) ∧
      Effect d e ((d.files.set .snapshot (some (bytes, synced))).set .temporary none) := by
  obtain ⟨id, bound, content⟩ := filesBoundTo file
  have found : d.asked.find .temporary = .ok (some id) := by
    simp only [find, show d.asked.shape = .folder from tidy.shape]
    exact congrArg _ bound
  have old : d.asked.find .snapshot = .ok (d.names .snapshot) := by
    simp only [find, show d.asked.shape = .folder from tidy.shape]
    rfl
  have plain : (d.names .snapshot).bind d.asked.content? ≠ some .folder := by
    cases there : d.names .snapshot with
    | none => simp
    | some place =>
      obtain ⟨others, length, file⟩ := tidy.plain there
      rw [Option.bind_some, show d.asked.content? place = _ from file]
      simp
  let after := (d.asked.bind .snapshot (some id)).bind .temporary none
  have names (other : FileName) : after.names other =
      if other = .temporary then none else if other = .snapshot then some id else d.names other := rfl
  refine ⟨after, ?_, ?_⟩
  · simp only [replaceSnapshot, askDone done, found, old, if_neg plain]
    rfl
  · refine ⟨⟨tidy.shape, ?_, ?_⟩, ?_, fun _ there => there, rfl, fun _ => rfl, rfl, rfl, rfl,
      Nat.le_succ d.calls⟩
    · intro first second place one two
      have back (other : FileName) (there : after.names other = some place) :
          other = .snapshot ∧ place = id ∨
            other ≠ .temporary ∧ other ≠ .snapshot ∧ d.names other = some place := by
        rw [names] at there
        split at there
        · contradiction
        · split at there
          · cases Option.some.inj there
            exact .inl ⟨by assumption, rfl⟩
          · exact .inr ⟨by assumption, by assumption, there⟩
      rcases back first one with ⟨here, same⟩ | ⟨away, _, before⟩
      · rcases back second two with ⟨there, _⟩ | ⟨away, _, before⟩
        · exact here.trans there.symm
        · exact absurd (tidy.apart (same ▸ before) bound) away
      · rcases back second two with ⟨_, same⟩ | ⟨_, _, other⟩
        · exact absurd (tidy.apart (same ▸ before) bound) away
        · exact tidy.apart before other
    · intro other place there
      rw [names] at there
      split at there
      · contradiction
      · split at there
        · cases Option.some.inj there
          exact ⟨bytes, synced, content⟩
        · exact tidy.plain there
    · funext other
      by_cases temporary : other = .temporary
      · subst temporary
        rfl
      · rw [Files.setOther _ _ temporary]
        by_cases snapshot : other = .snapshot
        · subst snapshot
          rw [Files.setSame]
          exact filesBound (d := after) rfl content
        · rw [Files.setOther _ _ snapshot]
          have there : after.names other = d.names other := by
            rw [names, if_neg temporary, if_neg snapshot]
          simp only [files, there]
          rfl

theorem syncFolderFails {d : Folder} (tidy : Tidy d) {fault : OsFault} {kept : Nat}
    (fails : d.fate d.calls .syncFolder = .fails fault kept) :
    ∃ e, d.syncFolder = (.error fault, e) ∧ Effect d e d.files ∧ d.calls < e.calls :=
  ⟨d.asked, by simp only [syncFolder, askFails fails], askedEffect tidy, Nat.lt_succ_self d.calls⟩

theorem syncFolderDone {d : Folder} (tidy : Tidy d) (done : d.fate d.calls .syncFolder = .done) :
    ∃ e, d.syncFolder = (.ok (), e) ∧ Effect d e d.files :=
  ⟨d.asked, by simp only [syncFolder, askDone done], askedEffect tidy⟩

end AddressPool.Folder
