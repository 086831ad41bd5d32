import AddressPool.Store

/-! The calls that a store is sent, in their order, each with its answer. What is done over a store
can be done over one that writes them down, with the same answers and the same states; so the calls
say what was done of any store. -/
namespace AddressPool

inductive Called where
  | lock (answer : Except Fault Unit)
  | unlock (answer : Except Fault Unit)
  | reserve (owner : String) (a : Address) (answer : Except Fault Bool)
  | releaseOwner (owner : String) (answer : Except Fault Unit)
  | lastReserved (answer : Except Fault (Option Address))
  | close (answer : Except Fault Unit)
  deriving DecidableEq

namespace Called

variable {α : Type}

def faultIn? : Except Fault α → Option Fault
  | .error fault => some fault
  | .ok _ => none

def fault? : Called → Option Fault
  | .lock answer | .unlock answer | .releaseOwner _ answer | .close answer => faultIn? answer
  | .reserve _ _ answer => faultIn? answer
  | .lastReserved _ => none

def NeedsLock : Called → Prop
  | .reserve .. | .releaseOwner .. | .lastReserved _ => True
  | .lock _ | .unlock _ | .close _ => False

/-- The calls of what is done under the lock, and its answer. A lock that fails is the only call.
Otherwise there is one unlock, the last call, and its fault is the answer if there is no other;
`asks` says what comes between and to what answer. -/
inductive Locked (asks : List Called → Except Fault α → Prop) :
    List Called → Except Fault α → Prop where
  | refused (fault : Fault) : Locked asks [.lock (.error fault)] (.error fault)
  | failed {within : List Called} {fault : Fault} (asked : asks within (.error fault))
      (given : Except Fault Unit) :
      Locked asks (.lock (.ok ()) :: within ++ [.unlock given]) (.error fault)
  | granted {within : List Called} {value : α} (asked : asks within (.ok value))
      (given : Except Fault Unit) :
      Locked asks (.lock (.ok ()) :: within ++ [.unlock given]) (given.map fun _ => value)

end Called

structure Traced (σ : Type) where
  inner : σ
  calls : List Called

namespace Traced

variable {σ α : Type}

def tell (called : Except Fault α → Called) (run : σ → Except Fault α × σ) (s : Traced σ) :
    Except Fault α × Traced σ :=
  let (answer, inner) := run s.inner
  (answer, ⟨inner, s.calls ++ [called answer]⟩)

instance [Store σ] : Store (Traced σ) where
  lock := tell .lock Store.lock
  unlock := tell .unlock Store.unlock
  reserve owner a := tell (.reserve owner a) (Store.reserve owner a)
  releaseOwner owner := tell (.releaseOwner owner) (Store.releaseOwner owner)
  lastReserved := tell .lastReserved Store.lastReserved
  close := tell .close Store.close

variable {called : Except Fault α → Called} {run : σ → Except Fault α × σ} {s t : Traced σ}
variable {answer : Except Fault α}

theorem tellIff :
    tell called run s = (answer, t) ↔
      run s.inner = (answer, t.inner) ∧ t.calls = s.calls ++ [called answer] := by
  rcases t with ⟨inner, calls⟩
  rcases ran : run s.inner with ⟨given, after⟩
  simp only [tell, ran, Prod.mk.injEq, Traced.mk.injEq]
  constructor
  · rintro ⟨rfl, rfl, rfl⟩
    exact ⟨⟨rfl, rfl⟩, rfl⟩
  · rintro ⟨⟨rfl, rfl⟩, rfl⟩
    exact ⟨rfl, rfl, rfl⟩

theorem tells {after : σ} (ran : run s.inner = (answer, after)) :
    tell called run s = (answer, ⟨after, s.calls ++ [called answer]⟩) :=
  tellIff.mpr ⟨ran, rfl⟩

end Traced

namespace Store

variable {σ α : Type} [Store σ]

inductive WhileLocked (body : σ → Except Fault α × σ → Prop) : σ → Except Fault α × σ → Prop where
  | refused {s t : σ} {fault : Fault} (locks : lock s = (.error fault, t)) :
      WhileLocked body s (.error fault, t)
  | failed {s t u v : σ} {fault : Fault} {given : Except Fault Unit} (locks : lock s = (.ok (), t))
      (does : body t (.error fault, u)) (unlocks : unlock u = (given, v)) :
      WhileLocked body s (.error fault, v)
  | granted {s t u v : σ} {value : α} {given : Except Fault Unit} (locks : lock s = (.ok (), t))
      (does : body t (.ok value, u)) (unlocks : unlock u = (given, v)) :
      WhileLocked body s (given.map fun _ => value, v)

theorem whileLockedGranted {body : σ → Except Fault α × σ} {s t u v : σ} {value : α}
    {given : Except Fault Unit} (locks : lock s = (.ok (), t)) (does : body t = (.ok value, u))
    (unlocks : unlock u = (given, v)) :
    whileLocked body s = (given.map fun _ => value, v) := by
  simp only [whileLocked, locks, does, unlocks]
  cases given <;> rfl

theorem whileLockedIff {Body : σ → Except Fault α × σ → Prop} {body : σ → Except Fault α × σ}
    {s : σ} {outcome : Except Fault α × σ}
    (does : ∀ t, lock s = (.ok (), t) → ∀ outcome, Body t outcome ↔ outcome = body t) :
    WhileLocked Body s outcome ↔ outcome = whileLocked body s := by
  constructor
  · intro ran
    cases ran with
    | refused locks => simp only [whileLocked, locks]
    | failed locks done unlocks =>
      simp only [whileLocked, locks, ← (does _ locks _).mp done, unlocks]
    | granted locks done unlocks =>
      exact (whileLockedGranted locks ((does _ locks _).mp done).symm unlocks).symm
  · rintro rfl
    rcases locks : lock s with ⟨fault | _, t⟩
    · simp only [whileLocked, locks]
      exact .refused locks
    · have done := (does t locks (body t)).mpr rfl
      rcases ran : body t with ⟨fault | value, u⟩ <;> rw [ran] at done
      · simp only [whileLocked, locks, ran]
        exact .failed locks done rfl
      · rw [whileLockedGranted locks ran rfl]
        exact .granted locks done rfl

end Store

structure Mirrors {σ α : Type} (plain : σ → Except Fault α × σ → Prop)
    (traced : Traced σ → Except Fault α × Traced σ → Prop)
    (asks : List Called → Except Fault α → Prop) : Prop where
  forgets : ∀ {s t answer}, traced s (answer, t) → plain s.inner (answer, t.inner) ∧
    ∃ made, t.calls = s.calls ++ made ∧ asks made answer
  repeats : ∀ (s : Traced σ) {answer t}, plain s.inner (answer, t) →
    ∃ calls, traced s (answer, ⟨t, calls⟩)

namespace Mirrors

variable {σ α : Type} {plain : σ → Except Fault α × σ → Prop}
variable {traced : Traced σ → Except Fault α × Traced σ → Prop}
variable {asks : List Called → Except Fault α → Prop}

theorem imp {other : List Called → Except Fault α → Prop} (mirrors : Mirrors plain traced asks)
    (weaker : ∀ made answer, asks made answer → other made answer) : Mirrors plain traced other where
  forgets ran :=
    have ⟨plainly, made, later, asked⟩ := mirrors.forgets ran
    ⟨plainly, made, later, weaker made _ asked⟩
  repeats := mirrors.repeats

theorem answer (given : Except Fault α) (asked : asks [] given) :
    Mirrors (σ := σ) (fun s outcome => outcome = (given, s)) (fun s outcome => outcome = (given, s))
      asks where
  forgets := by
    rintro s t answer ⟨⟩
    exact ⟨rfl, [], (List.append_nil _).symm, asked⟩
  repeats := by
    rintro s answer t ⟨⟩
    exact ⟨_, rfl⟩

theorem call {β : Type} (called : Except Fault β → Called) (run : σ → Except Fault β × σ)
    {plain : Except Fault β → σ → Except Fault α × σ → Prop}
    {traced : Except Fault β → Traced σ → Except Fault α × Traced σ → Prop}
    {asks : Except Fault β → List Called → Except Fault α → Prop}
    (rest : ∀ answer, Mirrors (plain answer) (traced answer) (asks answer)) :
    Mirrors (fun s outcome => ∃ answer t, run s = (answer, t) ∧ plain answer t outcome)
      (fun s outcome => ∃ answer t, Traced.tell called run s = (answer, t) ∧ traced answer t outcome)
      fun made picked => ∃ answer after, made = called answer :: after ∧ asks answer after picked where
  forgets := by
    rintro s t picked ⟨answer, u, ran, onward⟩
    obtain ⟨ran, calls⟩ := Traced.tellIff.mp ran
    obtain ⟨plainly, made, later, asked⟩ := (rest answer).forgets onward
    refine ⟨⟨answer, u.inner, ran, plainly⟩, called answer :: made, ?_, answer, made, rfl, asked⟩
    rw [later, calls, List.append_assoc, List.singleton_append]
  repeats := by
    rintro s picked t ⟨answer, u, ran, onward⟩
    obtain ⟨calls, onward⟩ := (rest answer).repeats ⟨u, _⟩ onward
    exact ⟨calls, answer, _, Traced.tells ran, onward⟩

theorem reply {β : Type} (called : Except Fault β → Called) (run : σ → Except Fault β × σ)
    (gives : Except Fault β → Except Fault α)
    (asked : ∀ answer, asks [called answer] (gives answer)) :
    Mirrors (fun s outcome => ∃ answer t, run s = (answer, t) ∧ outcome = (gives answer, t))
      (fun s outcome => ∃ answer t, Traced.tell called run s = (answer, t) ∧
        outcome = (gives answer, t)) asks := by
  have replies (answer : Except Fault β) : Mirrors (σ := σ)
      (fun t outcome => outcome = (gives answer, t)) (fun t outcome => outcome = (gives answer, t))
      fun made picked => made = [] ∧ picked = gives answer := .answer _ ⟨rfl, rfl⟩
  refine (call called run replies).imp ?_
  rintro _ _ ⟨answer, _, rfl, rfl, rfl⟩
  exact asked answer

theorem locked [Store σ] (mirrors : Mirrors plain traced asks) :
    Mirrors (Store.WhileLocked plain) (Store.WhileLocked traced) (Called.Locked asks) where
  forgets := by
    -- The calls of a body stand between those of the lock and the unlock.
    have between {s t u v : Traced σ} {made : List Called} {given : Except Fault Unit}
        (first : t.calls = s.calls ++ [.lock (.ok ())]) (after : u.calls = t.calls ++ made)
        (last : v.calls = u.calls ++ [.unlock given]) :
        v.calls = s.calls ++ (.lock (.ok ()) :: made ++ [.unlock given]) := by
      rw [last, after, first]
      simp only [List.append_assoc, List.cons_append, List.nil_append]
    intro s t answer ran
    cases ran with
    | refused locks =>
      obtain ⟨locks, first⟩ := Traced.tellIff.mp locks
      exact ⟨.refused locks, _, first, .refused _⟩
    | failed locks does unlocks =>
      obtain ⟨locks, first⟩ := Traced.tellIff.mp locks
      obtain ⟨does, made, later, asked⟩ := mirrors.forgets does
      obtain ⟨unlocks, last⟩ := Traced.tellIff.mp unlocks
      exact ⟨.failed locks does unlocks, _, between first later last, .failed asked _⟩
    | granted locks does unlocks =>
      obtain ⟨locks, first⟩ := Traced.tellIff.mp locks
      obtain ⟨does, made, later, asked⟩ := mirrors.forgets does
      obtain ⟨unlocks, last⟩ := Traced.tellIff.mp unlocks
      exact ⟨.granted locks does unlocks, _, between first later last, .granted asked _⟩
  repeats := by
    intro s answer t ran
    generalize place : s.inner = inner at ran
    cases ran with
    | refused locks => exact ⟨_, .refused (Traced.tells (place ▸ locks))⟩
    | failed locks does unlocks =>
      obtain ⟨calls, does⟩ := mirrors.repeats ⟨_, s.calls ++ [.lock (.ok ())]⟩ does
      exact ⟨_, .failed (Traced.tells (place ▸ locks)) does (Traced.tells unlocks)⟩
    | granted locks does unlocks =>
      obtain ⟨calls, does⟩ := mirrors.repeats ⟨_, s.calls ++ [.lock (.ok ())]⟩ does
      exact ⟨_, .granted (Traced.tells (place ▸ locks)) does (Traced.tells unlocks)⟩

end Mirrors
end AddressPool
