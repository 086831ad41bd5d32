import AddressPool.Proofs.Session.Instances

/-! What a session's answers have to be, with nothing but a table, the names in use and the
one instance that has the lock. A memory session behaves exactly like that. -/
namespace AddressPool.Session

structure Pool where
  known : String → Bool
  holding : Option String
  table : Table

namespace Pool

def vacant : Pool := ⟨fun _ => false, none, .empty⟩

def start (first : String) : Pool := ⟨fun id => id == first, none, .empty⟩

def leave (p : Pool) (id : String) : Pool :=
  if p.holding = some id then { p with holding := none } else p

def enter (p : Pool) (id : String) : Answer × Pool :=
  (.entered (if p.known id then some (.ok ()) else none) (.ok ()),
    { p.leave id with known := fun other => other == id || p.known other })

def call (p : Pool) (id : String) : Command → Answer × Pool
  | .enter _ => p.enter id
  | .lock =>
      match p.holding with
      | none => (.done (.ok ()), { p with holding := some id })
      | some other => (.done (if other = id then .ok () else .error .held), p)
  | .unlock => (.done (.ok ()), p.leave id)
  | .reserve owner a =>
      if p.holding = some id then
        let (free, table) := p.table.tryReserve owner a
        (.reserved (.ok free), { p with table })
      else (.reserved (.error (.notLocked .reserve)), p)
  | .releaseOwner owner =>
      if p.holding = some id then
        (.done (.ok ()), { p with table := p.table.freeAll (p.table.addressesOf owner) })
      else (.done (.error (.notLocked .releaseOwner)), p)
  | .lastReserved =>
      (.marker (if p.holding = some id then .ok p.table.marker
        else .error (.notLocked .lastReserved)), p)
  | .reservations => (if p.holding = some id then .listed (.ok p.table.toList) else .unasked, p)

def step (p : Pool) (step : Step) : Answer × Pool :=
  match step.command with
  | .enter _ => p.enter step.id
  | command => if p.known step.id then p.call step.id command else (.missing, p)

end Pool

structure Remembers (first : String) (h : Host) (p : Pool) : Prop where
  tables : h.tables = [⟨p.holding.isSome, p.table⟩]
  instances : ∀ id, h.find? id =
    if p.known id then some (.memory 0 (decide (p.holding = some id))) else none
  holder : ∀ {id}, p.holding = some id → p.known id = true
  first : p.known first = true

namespace Remembers

variable {first id : String} {h : Host} {p : Pool}

theorem shared (r : Remembers first h p) : h.shared 0 = ⟨p.holding.isSome, p.table⟩ := by
  simp [Host.shared, r.tables]

theorem start (root first : String) (settings : StoreSettings) :
    Remembers first (Backing.memory.start root first settings) (Pool.start first) where
  tables := rfl
  instances id := by
    by_cases same : id = first <;> simp [Backing.start, Host.openMemory, Host.drop, Host.newTable,
      Host.empty, Host.find?, Host.put, Pool.start, List.lookup_cons, same,
      beq_eq_false_iff_ne.mpr]
  holder held := by simp [Pool.start] at held
  first := by simp [Pool.start]

theorem found (r : Remembers first h p) (known : p.known id = true) :
    h.find? id = some (.memory 0 (decide (p.holding = some id))) := by
  rw [r.instances, if_pos known]

theorem known (r : Remembers first h p) (id : String) : (h.find? id).isSome = p.known id := by
  rw [r.instances]
  cases p.known id <;> rfl

theorem moved (r : Remembers first h p) (known : p.known id = true) {t : Memory} {next : Pool}
    (names : next.known = p.known) (shared : t.shared = ⟨next.holding.isSome, next.table⟩)
    (holding : t.holding = decide (next.holding = some id))
    (others : ∀ other, other ≠ id → (next.holding = some other ↔ p.holding = some other)) :
    Remembers first (h.movedMemory 0 id t) next where
  tables := by
    simp only [Host.movedMemory, Host.put, r.tables, List.set_cons_zero, shared]
  instances other := by
    rw [Host.findMovedMemory, names]
    by_cases same : other = id
    · subst same
      rw [if_pos rfl, if_pos known, holding]
    · rw [if_neg same, r.instances]
      simp only [others other same]
  holder {other} held := by
    rw [names]
    by_cases same : other = id
    · rw [same, known]
    · exact r.holder ((others other same).mp held)
  first := by rw [names]; exact r.first

theorem calledIdle (r : Remembers first h p) (idle : p.holding = none) (known : p.known id = true)
    {α : Type} (run : {σ : Type} → [Store σ] → σ → α × σ) :
    h.call id run = some ((run (Memory.mk false ⟨false, p.table⟩)).1,
      h.movedMemory 0 id (run (Memory.mk false ⟨false, p.table⟩)).2) := by
  rw [Host.callMemory (r.found known), r.shared, idle]
  simp only [reduceCtorEq, decide_false, Option.isSome_none]

theorem movedIdle (r : Remembers first h p) (idle : p.holding = none) (known : p.known id = true)
    (table : Table) :
    Remembers first (h.movedMemory 0 id (Memory.mk false ⟨false, table⟩)) { p with table } :=
  r.moved known rfl (by simp [idle]) (by simp [idle]) (by simp [idle])

theorem asked (r : Remembers first h p) (known : p.known id = true) {α : Type} (wrap : α → Answer)
    (run : {σ : Type} → [Store σ] → σ → α × σ) :
    ask id wrap run h =
      (wrap (run (Memory.mk (decide (p.holding = some id)) ⟨p.holding.isSome, p.table⟩)).1,
        h.movedMemory 0 id
          (run (Memory.mk (decide (p.holding = some id)) ⟨p.holding.isSome, p.table⟩)).2) := by
  simp only [ask, Host.callMemory (r.found known), r.shared]

theorem lock (r : Remembers first h p) (known : p.known id = true) :
    (ask id .done Store.lock h).1 = (p.call id .lock).1 ∧
      Remembers first (ask id .done Store.lock h).2 (p.call id .lock).2 := by
  rw [r.asked known]
  cases holding : p.holding with
  | none =>
    simp only [Pool.call, holding]
    exact ⟨rfl, r.moved known rfl rfl (by simp [Store.lock, Memory.lock])
      (by intro other apart; simp [holding, Ne.symm apart])⟩
  | some other =>
    simp only [Pool.call, holding]
    by_cases same : other = id
    · subst same
      exact ⟨by simp [Store.lock, Memory.lock], r.moved known rfl (by simp [Store.lock, Memory.lock, holding])
        (by simp [Store.lock, Memory.lock, holding]) (fun _ _ => Iff.rfl)⟩
    · exact ⟨by simp [Store.lock, Memory.lock, same], r.moved known rfl
        (by simp [Store.lock, Memory.lock, holding, same])
        (by simp [Store.lock, Memory.lock, holding, same]) (fun _ _ => Iff.rfl)⟩

theorem unlock (r : Remembers first h p) (known : p.known id = true) {α : Type}
    (wrap : Except Fault Unit → α) :
    wrap (Store.unlock (Memory.mk (decide (p.holding = some id)) ⟨p.holding.isSome, p.table⟩)).1 =
        wrap (.ok ()) ∧
      Remembers first (h.movedMemory 0 id
        (Store.unlock (Memory.mk (decide (p.holding = some id)) ⟨p.holding.isSome, p.table⟩)).2)
        (p.leave id) := by
  by_cases held : p.holding = some id
  · have left : p.leave id = { p with holding := none } := if_pos held
    rw [left]
    refine ⟨by simp [Store.unlock, Memory.unlock, held], r.moved known rfl ?_ ?_ ?_⟩
    · simp [Store.unlock, Memory.unlock, held]
    · simp [Store.unlock, Memory.unlock, held]
    · intro other apart
      simp [held, Ne.symm apart]
  · have left : p.leave id = p := if_neg held
    rw [left]
    exact ⟨by simp [Store.unlock, Memory.unlock, held], r.moved known rfl
      (by simp [Store.unlock, Memory.unlock, held]) (by simp [Store.unlock, Memory.unlock, held])
      (fun _ _ => Iff.rfl)⟩

theorem dropped (r : Remembers first h p) (unheld : p.holding ≠ some id) :
    (h.drop id).2.tables = h.tables := by
  by_cases known : p.known id = true
  · simp [Host.drop, r.found known, Host.callOn, unheld, Store.close, Memory.unlock, r.shared,
      r.tables]
  · have missing : h.find? id = none := by rw [r.instances, if_neg known]
    simp only [Host.drop, missing]

theorem cloned (r : Remembers first h p) (unheld : p.holding ≠ some id) :
    Remembers first (h.clone id first)
      { p with known := fun other => other == id || p.known other } := by
  have clone : h.clone id first = (h.drop id).2.put id (.memory 0 false) := by
    simp only [Host.clone, r.found r.first]
  rw [clone]
  refine ⟨(r.dropped unheld).trans r.tables, ?_, ?_, by simp [r.first]⟩
  · intro other
    rw [Host.findPut]
    by_cases same : other = id
    · simp [same, unheld]
    · rw [if_neg same, Host.findDrop, if_neg same, r.instances]
      simp [same]
  · intro other held
    simp [r.holder held]

theorem entered (r : Remembers first h p) (settings : StoreSettings) :
    (Backing.memory.enter first id settings h).1 = (p.enter id).1 ∧
      Remembers first (Backing.memory.enter first id settings h).2 (p.enter id).2 := by
  have free : (p.leave id).holding ≠ some id := by
    unfold Pool.leave
    split <;> simp_all
  by_cases known : p.known id = true
  · obtain ⟨answer, left⟩ := r.unlock known fun closed => Answer.entered (some closed) (.ok ())
    have call := Host.callMemory (r.found known) Store.close
    rw [r.shared] at call
    simp only [Backing.enter, call, Backing.openInstance, Pool.enter, if_pos known]
    refine ⟨answer, ?_⟩
    have names : (p.leave id).known = p.known := by
      unfold Pool.leave
      split <;> rfl
    have cloned := left.cloned free
    rw [names] at cloned
    exact cloned
  · have missing : h.find? id = none := by rw [r.instances, if_neg known]
    have unheld : p.holding ≠ some id := fun held => known (r.holder held)
    have left : p.leave id = p := if_neg unheld
    simp only [Backing.enter, Host.callMissing missing, Backing.openInstance, Pool.enter,
      if_neg known, left]
    exact ⟨trivial, r.cloned unheld⟩

theorem reserve (r : Remembers first h p) (known : p.known id = true) (owner : String)
    (a : Address) :
    (ask id .reserved (Store.reserve owner a) h).1 = (p.call id (.reserve owner a)).1 ∧
      Remembers first (ask id .reserved (Store.reserve owner a) h).2
        (p.call id (.reserve owner a)).2 := by
  rw [r.asked known]
  by_cases held : p.holding = some id
  · simp only [Pool.call, if_pos held]
    exact ⟨by simp [Store.reserve, Memory.reserve, held], r.moved known rfl
      (by simp [Store.reserve, Memory.reserve, held, Memory.withTable])
      (by simp [Store.reserve, Memory.reserve, held, Memory.withTable]) (fun _ _ => Iff.rfl)⟩
  · simp only [Pool.call, if_neg held]
    exact ⟨by simp [Store.reserve, Memory.reserve, held], r.moved known rfl
      (by simp [Store.reserve, Memory.reserve, held])
      (by simp [Store.reserve, Memory.reserve, held]) (fun _ _ => Iff.rfl)⟩

theorem releaseOwner (r : Remembers first h p) (known : p.known id = true) (owner : String) :
    (ask id .done (Store.releaseOwner owner) h).1 = (p.call id (.releaseOwner owner)).1 ∧
      Remembers first (ask id .done (Store.releaseOwner owner) h).2
        (p.call id (.releaseOwner owner)).2 := by
  rw [r.asked known]
  by_cases held : p.holding = some id
  · simp only [Pool.call, if_pos held]
    exact ⟨by simp [Store.releaseOwner, Memory.releaseOwner, held], r.moved known rfl
      (by simp [Store.releaseOwner, Memory.releaseOwner, held, Memory.withTable])
      (by simp [Store.releaseOwner, Memory.releaseOwner, held, Memory.withTable])
      (fun _ _ => Iff.rfl)⟩
  · simp only [Pool.call, if_neg held]
    exact ⟨by simp [Store.releaseOwner, Memory.releaseOwner, held], r.moved known rfl
      (by simp [Store.releaseOwner, Memory.releaseOwner, held])
      (by simp [Store.releaseOwner, Memory.releaseOwner, held]) (fun _ _ => Iff.rfl)⟩

theorem lastReserved (r : Remembers first h p) (known : p.known id = true) :
    (ask id .marker Store.lastReserved h).1 = (p.call id .lastReserved).1 ∧
      Remembers first (ask id .marker Store.lastReserved h).2 (p.call id .lastReserved).2 := by
  rw [r.asked known]
  by_cases held : p.holding = some id
  · exact ⟨by simp [Pool.call, Store.lastReserved, Memory.lastReserved, held], r.moved known rfl
      (by simp [Store.lastReserved, Memory.lastReserved, held, Pool.call])
      (by simp [Store.lastReserved, Memory.lastReserved, held, Pool.call]) (fun _ _ => Iff.rfl)⟩
  · exact ⟨by simp [Pool.call, Store.lastReserved, Memory.lastReserved, held], r.moved known rfl
      (by simp [Store.lastReserved, Memory.lastReserved, held, Pool.call])
      (by simp [Store.lastReserved, Memory.lastReserved, held, Pool.call]) (fun _ _ => Iff.rfl)⟩

theorem reservations (r : Remembers first h p) (known : p.known id = true) :
    listing id h = (p.call id .reservations).1 := by
  by_cases held : p.holding = some id
  · simp [listing, r.found known, Instance.isLocked, held, list, r.shared, Pool.call,
      Memory.reservations]
  · simp [listing, r.found known, Instance.isLocked, held, Pool.call]

theorem missing (r : Remembers first h p) (known : p.known id = false) : h.find? id = none := by
  rw [r.instances, known]
  rfl

theorem step (r : Remembers first h p) (step : Step) :
    (Backing.memory.step first step h).1 = (p.step step).1 ∧
      Remembers first (Backing.memory.step first step h).2 (p.step step).2 := by
  obtain ⟨id, time, command⟩ := step
  simp only [Backing.step, Backing.setTime]
  cases known : p.known id with
  | false =>
    have call {α : Type} (run : {σ : Type} → [Store σ] → σ → α × σ) : h.call id run = none :=
      Host.callMissing (r.missing known) run
    cases command with
    | enter settings => exact r.entered settings
    | reservations =>
      simp only [listing, r.missing known, Pool.step, known]
      exact ⟨rfl, r⟩
    | lock | unlock | reserve | releaseOwner | lastReserved =>
      simp only [ask, call, Pool.step, known]
      exact ⟨rfl, r⟩
  | true =>
    cases command with
    | enter settings => exact r.entered settings
    | lock => simpa only [Pool.step, known, if_true] using r.lock known
    | unlock =>
      simp only [Pool.step, known, if_true, r.asked known]
      exact r.unlock known Answer.done
    | reserve owner a => simpa only [Pool.step, known, if_true] using r.reserve known owner a
    | releaseOwner owner => simpa only [Pool.step, known, if_true] using r.releaseOwner known owner
    | lastReserved => simpa only [Pool.step, known, if_true] using r.lastReserved known
    | reservations =>
      simp only [Pool.step, known, if_true]
      exact ⟨r.reservations known, r⟩

end Remembers
end AddressPool.Session
