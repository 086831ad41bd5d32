import AddressPool.Proofs.Allocator.Decision
import AddressPool.Proofs.Allocator.Ending
import AddressPool.Proofs.Store.Traced
import AddressPool.Store.Failing

/-! The calls that a request makes, over any store and whatever each of them is answered. The lock is
given back once on every way out, and the answer is the first fault of the store, unless the request
itself is refused. The search has no limit on its steps here, so a request that ends is described at
whatever length it ends. -/
namespace AddressPool.Allocator

section Unlimited

variable {σ : Type} [Store σ] {r : Allocator} {owner : String} {stop a : Address} {s : σ}

theorem loopIff {outcome : Except Fault Address × σ} :
    r.Loop owner stop a s outcome ↔
      if a = stop then outcome = (.error (.exhausted r.network.name), s)
      else if a ≠ r.gateway ∧ r.range.contains a then
        match Store.reserve owner a s with
        | (.error fault, t) => outcome = (.error fault, t)
        | (.ok true, t) => outcome = (.ok a, t)
        | (.ok false, t) => r.Loop owner stop (r.range.after a) t outcome
      else r.Loop owner stop (r.range.after a) s outcome := by
  constructor
  · intro loop
    cases loop with
    | stopped => rw [if_pos rfl]
    | failed apart member reserved => simp only [if_neg apart, if_pos member, reserved]
    | found apart member reserved => simp only [if_neg apart, if_pos member, reserved]
    | owned apart member reserved rest => simpa only [if_neg apart, if_pos member, reserved]
    | passed apart other rest => rwa [if_neg apart, if_neg other]
  · intro round
    split at round
    · next same =>
      subst same round
      exact .stopped
    · next apart =>
      split at round
      · next member =>
        split at round
        · next reserved => exact round ▸ .failed apart member reserved
        · next reserved => exact round ▸ .found apart member reserved
        · next reserved => exact .owned apart member reserved round
      · next other => exact .passed apart other round

theorem walkIff {steps : Nat} {outcome : Except Fault Address × σ}
    (ends : (r.walk owner stop steps a s).1 ≠ .error (.endless r.network.name)) :
    r.Loop owner stop a s outcome ↔ outcome = r.walk owner stop steps a s := by
  induction steps generalizing a s with
  | zero => exact absurd rfl ends
  | succ steps ih =>
    rw [loopIff]
    rw [walk] at ends ⊢
    by_cases same : a = stop
    · rw [if_pos same, if_pos same]
    · rw [if_neg same] at ends ⊢
      rw [if_neg same]
      by_cases member : a ≠ r.gateway ∧ r.range.contains a
      · rw [if_pos member] at ends ⊢
        rw [if_pos member]
        rcases reserved : Store.reserve owner a s with ⟨fault | free, t⟩
        · rfl
        · cases free with
          | true => rfl
          | false =>
            simp only [reserved] at ends
            exact ih ends
      · rw [if_neg member] at ends ⊢
        rw [if_neg member]
        exact ih ends

def Searches (r : Allocator) (owner : String) (s : σ) (outcome : Except Fault Address × σ) : Prop :=
  if r.range.isEmpty then outcome = (.error (.exhausted r.network.name), s)
  else
    ∃ marker t, Store.lastReserved s = (marker, t) ∧
      r.Loop owner (r.walkBounds marker).2 (r.walkBounds marker).1 t outcome

def Picks (r : Allocator) (owner : String) (s : σ) (outcome : Except Fault Address × σ) : Prop :=
  match r.network.requested with
  | some requested => outcome = r.take owner requested s
  | none => r.Searches owner s outcome

def Allocates (r : Allocator) (owner : String) (s : σ) (outcome : Except Fault Lease × σ) : Prop :=
  ∃ picked, Store.WhileLocked (r.Picks owner) s (picked, outcome.2) ∧
    outcome.1 = picked.map r.lease

theorem picksIff {outcome : Except Fault Address × σ}
    (ends : (r.pick owner s).1 ≠ .error (.endless r.network.name)) :
    r.Picks owner s outcome ↔ outcome = r.pick owner s := by
  unfold Picks pick at *
  cases asked : r.network.requested with
  | some requested => rfl
  | none =>
    simp only [asked] at ends ⊢
    rcases read : Store.lastReserved s with ⟨marker, t⟩
    by_cases empty : r.range.isEmpty = true
    · rw [Searches, search, if_pos empty, if_pos empty]
    · have inhabited := Bool.eq_false_of_not_eq_true empty
      rw [searchWalk owner inhabited read] at ends ⊢
      rw [← walkIff ends, Searches, if_neg empty, read]
      constructor
      · rintro ⟨_, _, same, loop⟩
        cases same
        exact loop
      · intro loop
        exact ⟨marker, t, rfl, loop⟩

theorem allocatesIff {outcome : Except Fault Lease × σ}
    (ends : (r.allocate owner s).1 ≠ .error (.endless r.network.name)) :
    r.Allocates owner s outcome ↔ outcome = r.allocate owner s := by
  have runs : ∀ outcome, Store.WhileLocked (r.Picks owner) s outcome ↔
      outcome = Store.whileLocked (r.pick owner) s := by
    refine fun outcome => Store.whileLockedIff fun t locks picked => picksIff fun endless => ends ?_
    rcases ran : r.pick owner t with ⟨answer, u⟩
    rw [ran] at endless
    cases endless
    simp only [allocate, Store.whileLocked, locks, ran]
    rfl
  simp only [Allocates, runs, allocate]
  rcases Store.whileLocked (r.pick owner) s with ⟨answer, t⟩
  rcases outcome with ⟨lease, u⟩
  simp only [Prod.mk.injEq]
  constructor
  · rintro ⟨_, ⟨rfl, rfl⟩, rfl⟩
    exact ⟨rfl, rfl⟩
  · rintro ⟨rfl, rfl⟩
    exact ⟨answer, ⟨rfl, rfl⟩, rfl⟩

end Unlimited

section Answers

variable {r : Allocator} {owner : String} {stop a : Address} {made : List Called}
variable {picked : Except Fault Address}

inductive Tries (r : Allocator) (owner : String) (stop : Address) :
    Address → List Called → Except Fault Address → Prop where
  | stopped : Tries r owner stop stop [] (.error (.exhausted r.network.name))
  | failed {a : Address} (apart : a ≠ stop) (member : a ≠ r.gateway ∧ r.range.contains a = true)
      (fault : Fault) : Tries r owner stop a [.reserve owner a (.error fault)] (.error fault)
  | found {a : Address} (apart : a ≠ stop) (member : a ≠ r.gateway ∧ r.range.contains a = true) :
      Tries r owner stop a [.reserve owner a (.ok true)] (.ok a)
  | owned {a : Address} {made : List Called} {picked : Except Fault Address} (apart : a ≠ stop)
      (member : a ≠ r.gateway ∧ r.range.contains a = true)
      (rest : Tries r owner stop (r.range.after a) made picked) :
      Tries r owner stop a (.reserve owner a (.ok false) :: made) picked
  | passed {a : Address} {made : List Called} {picked : Except Fault Address} (apart : a ≠ stop)
      (other : ¬ (a ≠ r.gateway ∧ r.range.contains a = true))
      (rest : Tries r owner stop (r.range.after a) made picked) : Tries r owner stop a made picked

def Seeks (r : Allocator) (owner : String) (made : List Called) (picked : Except Fault Address) :
    Prop :=
  if r.range.isEmpty then made = [] ∧ picked = .error (.exhausted r.network.name)
  else
    ∃ marker tried, made = .lastReserved marker :: tried ∧
      r.Tries owner (r.walkBounds marker).2 (r.walkBounds marker).1 tried picked

inductive Refuses (r : Allocator) (owner : String) : List Called → Fault → Prop where
  | gateway (asked : r.network.requested = some r.gateway) :
      Refuses r owner [] (.requestedGateway r.gateway)
  | outside {a : Address} (asked : r.network.requested = some a)
      (out : r.network.subnet.contains a = false) :
      Refuses r owner [] (.requestedOutside a r.network.subnet)
  | unavailable {a : Address} (asked : r.network.requested = some a) :
      Refuses r owner [.reserve owner a (.ok false)] (.unavailable a r.network.name)
  | exhausted {made : List Called} (unasked : r.network.requested = none)
      (none : ∀ a, .reserve owner a (.ok true) ∉ made) :
      Refuses r owner made (.exhausted r.network.name)

inductive Settles (r : Allocator) (owner : String) : List Called → Except Fault Address → Prop where
  | failed {made : List Called} {fault : Fault} (first : made.findSome? Called.fault? = some fault) :
      Settles r owner made (.error fault)
  | refused {made : List Called} {fault : Fault} (well : ∀ call ∈ made, call.fault? = none)
      (refuses : r.Refuses owner made fault) : Settles r owner made (.error fault)
  | granted {before : List Called} {a : Address} (well : ∀ call ∈ before, call.fault? = none) :
      Settles r owner (before ++ [.reserve owner a (.ok true)]) (.ok a)

structure Asks (r : Allocator) (owner : String) (made : List Called) (picked : Except Fault Address) :
    Prop where
  under : ∀ call ∈ made, call.NeedsLock
  settles : r.Settles owner made picked
  restarts : ∀ fault, .lastReserved (.error fault) ∈ made →
    ∃ tried, made = .lastReserved (.error fault) :: tried ∧
      r.Tries owner r.range.stop r.range.start tried picked

theorem triesReserve (tries : r.Tries owner stop a made picked) :
    ∀ call ∈ made, ∃ b answer, call = .reserve owner b answer := by
  induction tries with
  | stopped => simp
  | failed | found => simp
  | owned _ _ _ ih => simpa using ih
  | passed _ _ _ ih => exact ih

section Unasked

variable (unasked : r.network.requested = none)
include unasked

theorem settlesLater {call : Called} (well : call.fault? = none)
    (other : ∀ a, call ≠ .reserve owner a (.ok true)) (settles : r.Settles owner made picked) :
    r.Settles owner (call :: made) picked := by
  have all {calls : List Called} (later : ∀ call ∈ calls, call.fault? = none) :
      ∀ each ∈ call :: calls, each.fault? = none := by
    simpa [well] using later
  cases settles with
  | failed first => exact .failed (by rw [List.findSome?_cons, well]; exact first)
  | refused later refuses =>
    -- A request for any address is refused for one reason only.
    cases refuses with
    | exhausted _ none =>
      refine .refused (all later) (.exhausted unasked fun a => ?_)
      rw [List.mem_cons, not_or]
      exact ⟨(other a).symm, none a⟩
    | gateway asked | outside asked | unavailable asked =>
      rw [unasked] at asked
      contradiction
  | @granted before a later =>
    rw [← List.cons_append]
    exact .granted (all later)

theorem triesSettle (tries : r.Tries owner stop a made picked) : r.Settles owner made picked := by
  induction tries with
  | stopped => exact .refused (by simp) (.exhausted unasked (by simp))
  | failed => exact .failed rfl
  | @found a =>
    rw [← List.nil_append [Called.reserve owner a _]]
    exact .granted (by simp)
  | owned _ _ _ ih => exact settlesLater unasked rfl (by simp) ih
  | passed _ _ _ ih => exact ih

theorem seeksAsk (seeks : r.Seeks owner made picked) : r.Asks owner made picked := by
  unfold Seeks at seeks
  split at seeks
  · obtain ⟨rfl, rfl⟩ := seeks
    exact ⟨by simp, .refused (by simp) (.exhausted unasked (by simp)), by simp⟩
  · obtain ⟨marker, tried, rfl, tries⟩ := seeks
    have reserve := triesReserve tries
    refine ⟨?_, settlesLater unasked rfl (by simp) (triesSettle unasked tries), ?_⟩
    · rintro call (_ | ⟨_, later⟩)
      · trivial
      · obtain ⟨b, answer, rfl⟩ := reserve call later
        trivial
    · rintro fault (_ | ⟨_, later⟩)
      · exact ⟨tried, rfl, tries⟩
      · obtain ⟨b, answer, same⟩ := reserve _ later
        contradiction

end Unasked
end Answers

section Mirrored

variable {σ : Type} [Store σ] {r : Allocator} {owner : String} {stop a : Address}

theorem loopMirrors :
    Mirrors (σ := σ) (r.Loop owner stop a) (r.Loop owner stop a) (r.Tries owner stop a) where
  forgets := by
    intro s t answer loop
    generalize outcome : (answer, t) = after at loop
    induction loop generalizing answer t with
    | stopped =>
      cases outcome
      exact ⟨.stopped, [], (List.append_nil _).symm, .stopped⟩
    | failed apart member reserved =>
      cases outcome
      obtain ⟨reserved, calls⟩ := Traced.tellIff.mp reserved
      exact ⟨.failed apart member reserved, _, calls, .failed apart member _⟩
    | found apart member reserved =>
      cases outcome
      obtain ⟨reserved, calls⟩ := Traced.tellIff.mp reserved
      exact ⟨.found apart member reserved, _, calls, .found apart member⟩
    | owned apart member reserved rest ih =>
      obtain ⟨reserved, calls⟩ := Traced.tellIff.mp reserved
      obtain ⟨plain, made, later, tries⟩ := ih outcome
      refine ⟨.owned apart member reserved plain, _, ?_, .owned apart member tries⟩
      rw [later, calls, List.append_assoc, List.singleton_append]
    | passed apart other rest ih =>
      obtain ⟨plain, made, later, tries⟩ := ih outcome
      exact ⟨.passed apart other plain, made, later, .passed apart other tries⟩
  repeats := by
    intro s answer t loop
    generalize place : s.inner = inner at loop
    generalize outcome : (answer, t) = after at loop
    induction loop generalizing s with
    | stopped =>
      cases outcome
      subst place
      exact ⟨_, .stopped⟩
    | failed apart member reserved =>
      cases outcome
      exact ⟨_, .failed apart member (Traced.tells (place ▸ reserved))⟩
    | found apart member reserved =>
      cases outcome
      exact ⟨_, .found apart member (Traced.tells (place ▸ reserved))⟩
    | owned apart member reserved rest ih =>
      obtain ⟨calls, loop⟩ := ih ⟨_, _⟩ rfl outcome
      exact ⟨calls, .owned apart member (Traced.tells (place ▸ reserved)) loop⟩
    | passed apart other rest ih =>
      obtain ⟨calls, loop⟩ := ih s place outcome
      exact ⟨calls, .passed apart other loop⟩

theorem searchesMirror :
    Mirrors (σ := σ) (r.Searches owner) (r.Searches owner) (r.Seeks owner) := by
  change Mirrors (fun s outcome => r.Searches owner s outcome)
    (fun s outcome => r.Searches owner s outcome) fun made picked => r.Seeks owner made picked
  by_cases empty : r.range.isEmpty = true
  · simp only [Searches, Seeks, if_pos empty]
    exact .answer _ ⟨rfl, rfl⟩
  · simp only [Searches, Seeks, if_neg empty]
    exact .call .lastReserved Store.lastReserved fun marker => loopMirrors

def answerTo (r : Allocator) (requested : Address) : Except Fault Bool → Except Fault Address
  | .error fault => .error fault
  | .ok true => .ok requested
  | .ok false => .error (.unavailable requested r.network.name)

theorem takeReserves {requested : Address} (apart : requested ≠ r.gateway)
    (inside : r.network.subnet.contains requested = true) {s : σ} {outcome : Except Fault Address × σ} :
    outcome = r.take owner requested s ↔ ∃ answer t, Store.reserve owner requested s = (answer, t) ∧
      outcome = (r.answerTo requested answer, t) := by
  rw [take, if_neg apart, if_pos inside]
  rcases Store.reserve owner requested s with ⟨fault | free, t⟩
  · simp [answerTo]
  · cases free <;> simp [answerTo]

theorem takeMirrors {requested : Address} (asked : r.network.requested = some requested) :
    Mirrors (σ := σ) (fun s outcome => outcome = r.take owner requested s)
      (fun s outcome => outcome = r.take owner requested s) (r.Asks owner) := by
  by_cases gateway : requested = r.gateway
  · simp only [take, if_pos gateway]
    exact .answer _ ⟨by simp, .refused (by simp) (.gateway (gateway ▸ asked)), by simp⟩
  by_cases inside : r.network.subnet.contains requested = true
  · simp only [takeReserves gateway inside]
    refine .reply (.reserve owner requested) (Store.reserve owner requested) (r.answerTo requested)
      fun answer => ⟨by simp [Called.NeedsLock], ?_, by simp⟩
    obtain fault | _ | _ := answer
    · exact .failed rfl
    · exact .refused (by simp [Called.fault?, Called.faultIn?]) (.unavailable asked)
    · exact .granted (List.forall_mem_nil _)
  · simp only [take, if_neg gateway, if_neg inside]
    have out := Bool.eq_false_of_not_eq_true inside
    exact .answer _ ⟨by simp, .refused (by simp) (.outside asked out), by simp⟩

theorem picksMirror : Mirrors (σ := σ) (r.Picks owner) (r.Picks owner) (r.Asks owner) := by
  change Mirrors (fun s outcome => r.Picks owner s outcome)
    (fun s outcome => r.Picks owner s outcome) (r.Asks owner)
  cases asked : r.network.requested with
  | some requested =>
    simp only [Picks, asked]
    exact takeMirrors asked
  | none =>
    simp only [Picks, asked]
    exact searchesMirror.imp fun made picked => seeksAsk asked

theorem releaseMirrors : Mirrors (fun s outcome => outcome = r.release owner s)
    (fun (s : Traced σ) outcome => outcome = r.release owner s)
    (Called.Locked fun made answer => made = [.releaseOwner owner answer]) := by
  have whole {τ : Type} [Store τ] (s : τ) (outcome : Except Fault Unit × τ) :
      outcome = r.release owner s ↔ Store.WhileLocked (fun s outcome => ∃ answer t,
        Store.releaseOwner owner s = (answer, t) ∧ outcome = (answer, t)) s outcome := by
    refine (Store.whileLockedIff fun t _ outcome => ?_).symm
    rcases Store.releaseOwner owner t with ⟨answer, u⟩
    simp
  simp only [whole]
  exact (Mirrors.reply (.releaseOwner owner) (Store.releaseOwner owner) id fun _ => rfl).locked

end Mirrored

/-- A request does over any store what it does over one that writes the calls down. The lock is taken
once and given back once, by the last call, or it fails and is the only call; between them the answer
is settled. A request that is computed without running out of steps is one that comes to an end, and
a release always does. -/
theorem lockKept {σ : Type} [Store σ] (r : Allocator) (owner : String) (s : σ) :
    (∀ answer t, r.Allocates owner s (answer, t) ↔
      ∃ calls, r.Allocates owner (Traced.mk s []) (answer, ⟨t, calls⟩)) ∧
    (∀ answer t calls, r.Allocates owner (Traced.mk s []) (answer, ⟨t, calls⟩) →
      ∃ picked, answer = picked.map r.lease ∧ Called.Locked (r.Asks owner) calls picked) ∧
    ((r.allocate owner s).1 ≠ .error (.endless r.network.name) →
      ∀ outcome, r.Allocates owner s outcome ↔ outcome = r.allocate owner s) ∧
    ∃ calls, r.release owner (Traced.mk s []) =
        ((r.release owner s).1, ⟨(r.release owner s).2, calls⟩) ∧
      Called.Locked (fun made answer => made = [.releaseOwner owner answer]) calls
        (r.release owner s).1 := by
  have allocation : Mirrors (σ := σ) (Store.WhileLocked (r.Picks owner))
      (Store.WhileLocked (r.Picks owner)) (Called.Locked (r.Asks owner)) := picksMirror.locked
  refine ⟨fun answer t => ⟨?_, ?_⟩, ?_, fun ends outcome => allocatesIff ends, ?_⟩
  · rintro ⟨picked, ran, rfl⟩
    obtain ⟨calls, ran⟩ := allocation.repeats ⟨s, []⟩ ran
    exact ⟨calls, picked, ran, rfl⟩
  · rintro ⟨calls, picked, ran, rfl⟩
    exact ⟨picked, (allocation.forgets ran).1, rfl⟩
  · rintro _ t calls ⟨picked, ran, rfl⟩
    obtain ⟨_, made, rfl, locked⟩ := allocation.forgets ran
    exact ⟨picked, rfl, locked⟩
  · obtain ⟨calls, traced⟩ := (releaseMirrors (r := r)).repeats ⟨s, []⟩ (Eq.refl (r.release owner s))
    obtain ⟨_, made, rfl, locked⟩ := releaseMirrors.forgets traced
    exact ⟨calls, traced.symm, locked⟩

def halfBroken : Failing Memory :=
  ⟨Memory.mk false ⟨false, Table.empty.setMarker (some (.wrap .v4 0x0A000002))⟩,
    [.lastReserved, .unlock]⟩

theorem halfBrokenKept :
    let failure (call : StoreCall) : Fault := .damage (.injected call.name)
    let calls : List Called := [.lock (.ok ()), .lastReserved (.error (failure .lastReserved)),
      .reserve "b" (.wrap .v4 0x0A000002) (.ok true), .unlock (.error (failure .unlock))]
    (quartet.allocate "b" halfBroken).1 ≠ .error (.endless quartet.network.name) ∧
    (∃ t, quartet.Allocates "b" halfBroken (.error (failure .unlock), t) ∧
      quartet.Allocates "b" (Traced.mk halfBroken []) (.error (failure .unlock), ⟨t, calls⟩)) ∧
    ∃ picked, .error (failure .unlock) = picked.map quartet.lease ∧
      Called.Locked (quartet.Asks "b") calls picked := by
  intro failure calls
  have kept := lockKept quartet "b" halfBroken
  have ends : (quartet.allocate "b" halfBroken).1 ≠ .error (.endless quartet.network.name) := by
    decide +kernel
  have traced : quartet.allocate "b" (Traced.mk halfBroken []) =
      (.error (failure .unlock), ⟨(quartet.allocate "b" halfBroken).2, calls⟩) := by
    rfl
  have run : quartet.Allocates "b" (Traced.mk halfBroken [])
      (.error (failure .unlock), ⟨(quartet.allocate "b" halfBroken).2, calls⟩) := by
    rw [allocatesIff (by rw [traced]; simp [failure]), traced]
  exact ⟨ends, ⟨_, (kept.1 _ _).mpr ⟨calls, run⟩, run⟩, kept.2.1 _ _ calls run⟩

end AddressPool.Allocator
