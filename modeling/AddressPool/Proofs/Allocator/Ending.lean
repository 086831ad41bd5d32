import AddressPool.Proofs.Allocator.Search
import Mathlib.Logic.Function.Iterate

/-! Whether a search ends. Its loop has no limit on its steps here; it comes to an end in a range of
any kind but one. The whole of a family has the same address, zero, for its start and for the bound
past its last address: a walk that begins after a marker and comes back to zero stays there, and
only a free address that it meets before, or zero itself, ends it. -/
namespace AddressPool

namespace Address

def ahead (a b : Address) : Nat :=
  if a.value ≤ b.value then b.value - a.value else b.value + a.family.space - a.value

theorem aheadSelf (a : Address) : a.ahead a = 0 := by
  rw [ahead, if_pos (Nat.le_refl _), Nat.sub_self]

theorem aheadNext {a b : Address} (here : b.family = a.family) (apart : a ≠ b) :
    a.next.ahead b + 1 = a.ahead b := by
  have next := a.nextValue
  have differ : a.value ≠ b.value := fun same => apart (alike here.symm same)
  have low := a.bound
  have high : b.value < a.family.space := here ▸ b.bound
  simp only [ahead, show a.next.family = a.family from rfl]
  split <;> split <;> omega

theorem aheadLess {a b : Address} (here : b.family = a.family) : a.ahead b < a.family.space := by
  have low := a.bound
  have high : b.value < a.family.space := here ▸ b.bound
  rw [ahead]
  split <;> omega

end Address

namespace Range

def Leads (r : Range) (a b : Address) : Prop := ∃ count, r.after^[count] a = b

def Stalls (r : Range) (marker : Except Fault (Option Address)) : Prop :=
  (r.start.isZero ∧ r.stop.isZero) ∧
    ∃ m, marker = .ok (some m) ∧ r.contains m = true ∧ ¬ m.isZero

section Trails

variable {r : Range} {a b : Address} {passed : List Address}

theorem leadsTrail : r.Leads a b ↔ ∃ passed, r.Trail b a passed := by
  constructor
  · rintro ⟨count, reached⟩
    induction count generalizing a with
    | zero => exact ⟨[], reached ▸ .done⟩
    | succ count ih =>
      by_cases apart : a = b
      · exact ⟨[], apart ▸ .done⟩
      · obtain ⟨passed, rest⟩ := ih reached
        exact ⟨a :: passed, .step apart rest⟩
  · rintro ⟨passed, trail⟩
    induction trail with
    | done => exact ⟨0, rfl⟩
    | step apart rest ih =>
      obtain ⟨count, reached⟩ := ih
      exact ⟨count + 1, reached⟩

theorem trailApart (trail : r.Trail b a passed) : ∀ c ∈ passed, c ≠ b := by
  induction trail with
  | done => simp
  | step apart rest ih =>
    rintro c (_ | ⟨_, later⟩)
    · exact apart
    · exact ih c later

theorem trailAhead (here : b.family = a.family) (bound : r.stop.family = a.family)
    (first : a.ahead b ≤ a.ahead r.stop) :
    ∃ passed, r.Trail b a passed ∧ passed.length = a.ahead b := by
  induction distance : a.ahead b generalizing a with
  | zero =>
    have here : a = b := by
      by_contra apart
      have nearer := Address.aheadNext here apart
      omega
    exact ⟨[], here ▸ .done, rfl⟩
  | succ distance ih =>
    have apart : a ≠ b := by
      rintro rfl
      rw [Address.aheadSelf] at distance
      contradiction
    have within : a ≠ r.stop := by
      intro same
      rw [← same, Address.aheadSelf] at first
      omega
    have nearer := Address.aheadNext here apart
    have bounded := Address.aheadNext bound within
    obtain ⟨passed, trail, length⟩ := @ih a.next here bound (by omega) (by omega)
    rw [show a.next = r.after a from (if_neg within).symm] at trail
    exact ⟨a :: passed, .step apart trail, by rw [List.length_cons, length]⟩

end Trails
section Ends

variable {r : Range} (family : r.stop.family = r.start.family) {m : Address}
include family

theorem trailStraight :
    ∃ passed, r.Trail r.stop r.start passed ∧ passed.length ≤ r.start.family.space := by
  obtain ⟨passed, trail, length⟩ := trailAhead family family (Nat.le_refl _)
  have less := Address.aheadLess family
  exact ⟨passed, trail, by omega⟩

theorem trailMarker (inside : r.contains m = true)
    (straight : r.start.isZero ∧ r.stop.isZero → m.isZero) :
    ∃ passed, r.Trail m (r.after m) passed ∧ passed.length ≤ r.start.family.space := by
  by_cases whole : r.start.isZero ∧ r.stop.isZero
  · have zero := straight whole
    have start : r.start = m :=
      Address.alike (containsFamily inside).symm (by simp_all [Address.isZero])
    have stop : m = r.stop :=
      Address.alike ((containsFamily inside).trans family.symm) (by simp_all [Address.isZero])
    rw [after, if_pos stop, start]
    exact ⟨[], .done, Nat.zero_le _⟩
  · have bounded : r.Bounded := ⟨family, whole⟩
    obtain ⟨k, below, rfl⟩ := nthOf bounded inside
    have room := bounded.room (Nat.zero_lt_of_lt below)
    refine ⟨_, trailRound bounded below, ?_⟩
    simp only [List.length_append, List.length_cons, List.length_map, List.length_range',
      List.length_range]
    omega

end Ends
section Whole

variable {r : Range} (family : r.stop.family = r.start.family)
variable (whole : r.start.isZero ∧ r.stop.isZero) {m a b : Address} {passed : List Address}

def Meets (r : Range) (m a : Address) : Prop := r.contains a = true ∧ (m < a ∨ a.isZero)

include family whole

theorem meetsIff (inside : r.contains m = true) :
    r.Meets m a ↔ a.family = r.start.family ∧ (m.value < a.value ∨ a.value = 0) := by
  have here := containsFamily inside
  have zero : r.stop.value = 0 := by simpa [Address.isZero] using whole.2
  have least : r.start.value = 0 := by simpa [Address.isZero] using whole.1
  constructor
  · rintro ⟨member, place⟩
    have there := containsFamily member
    rw [Address.ltIff (here.trans there.symm), Address.isZero, beq_iff_eq] at place
    exact ⟨there, place⟩
  · rintro ⟨there, place⟩
    refine ⟨(containsIff there family).mpr (by omega), ?_⟩
    rwa [Address.ltIff (here.trans there.symm), Address.isZero, beq_iff_eq]

variable (inside : r.contains m = true) (nonzero : ¬ m.isZero)
include inside

theorem afterMeets (later : m.value ≤ a.value ∨ a.value = 0) (there : a.family = r.start.family) :
    r.Meets m (r.after a) := by
  rw [meetsIff family whole inside, after]
  split
  · exact ⟨rfl, .inr (by simpa [Address.isZero] using whole.1)⟩
  · next apart =>
    have zero : r.stop.value = 0 := by simpa [Address.isZero] using whole.2
    have differ : a.value ≠ r.stop.value := fun same =>
      apart (Address.alike (there.trans family.symm) same)
    have next := a.nextValue
    exact ⟨there, by omega⟩

theorem trailMeets (trail : r.Trail b a passed) (meets : r.Meets m a) :
    r.Meets m b ∧ ∀ c ∈ passed, r.Meets m c := by
  induction trail with
  | done => exact ⟨meets, by simp⟩
  | step apart rest ih =>
    obtain ⟨there, place⟩ := (meetsIff family whole inside).mp meets
    obtain ⟨last, between⟩ := ih (afterMeets family whole inside (by omega) there)
    refine ⟨last, ?_⟩
    rintro c (_ | ⟨_, later⟩)
    · exact meets
    · exact between c later

include nonzero

theorem markerUnmet : ¬ r.Meets m m := by
  rw [meetsIff family whole inside]
  simp only [Address.isZero, beq_iff_eq] at nonzero
  omega

theorem standsStill : ¬ r.Leads (r.after m) m := by
  rw [leadsTrail]
  rintro ⟨passed, trail⟩
  have first := afterMeets family whole inside (.inl (Nat.le_refl _)) (containsFamily inside)
  exact markerUnmet family whole inside nonzero (trailMeets family whole inside trail first).1

theorem trailMet (meets : r.Meets m a) :
    ∃ passed, r.Trail a (r.after m) passed ∧ passed.length ≤ r.start.family.space ∧
      ∀ c ∈ passed, c ≠ m := by
  have here := containsFamily inside
  have apart : m ≠ r.stop := by
    rintro rfl
    exact nonzero whole.2
  have first := afterMeets family whole inside (.inl (Nat.le_refl _)) here
  obtain ⟨there, place⟩ := (meetsIff family whole inside).mp meets
  have zero : r.stop.value = 0 := by simpa [Address.isZero] using whole.2
  have next := m.nextValue
  have before : m.next.ahead a ≤ m.next.ahead r.stop := by
    simp only [Address.ahead, show m.next.family = m.family from rfl]
    have top := a.bound
    rw [there, ← here] at top
    split <;> split <;> omega
  have beside : a.family = m.next.family := there.trans here.symm
  obtain ⟨passed, trail, length⟩ := trailAhead beside (family.trans here.symm) before
  rw [show m.next = r.after m from (if_neg apart).symm] at trail
  refine ⟨passed, trail, ?_, ?_⟩
  · have less := Address.aheadLess beside
    rw [show m.next.family = r.start.family from here] at less
    omega
  · rintro c member rfl
    exact markerUnmet family whole inside nonzero
      ((trailMeets family whole inside trail first).2 c member)

end Whole
end Range

namespace Allocator

section Loops

variable {σ : Type} [Store σ]

inductive Loop (r : Allocator) (owner : String) (stop : Address) :
    Address → σ → Except Fault Address × σ → Prop where
  | stopped {s : σ} : Loop r owner stop stop s (.error (.exhausted r.network.name), s)
  | failed {a : Address} {s t : σ} {fault : Fault} (apart : a ≠ stop)
      (member : a ≠ r.gateway ∧ r.range.contains a = true)
      (reserved : Store.reserve owner a s = (.error fault, t)) :
      Loop r owner stop a s (.error fault, t)
  | found {a : Address} {s t : σ} (apart : a ≠ stop)
      (member : a ≠ r.gateway ∧ r.range.contains a = true)
      (reserved : Store.reserve owner a s = (.ok true, t)) : Loop r owner stop a s (.ok a, t)
  | owned {a : Address} {s t : σ} {outcome : Except Fault Address × σ} (apart : a ≠ stop)
      (member : a ≠ r.gateway ∧ r.range.contains a = true)
      (reserved : Store.reserve owner a s = (.ok false, t))
      (rest : Loop r owner stop (r.range.after a) t outcome) : Loop r owner stop a s outcome
  | passed {a : Address} {s : σ} {outcome : Except Fault Address × σ} (apart : a ≠ stop)
      (other : ¬ (a ≠ r.gateway ∧ r.range.contains a = true))
      (rest : Loop r owner stop (r.range.after a) s outcome) : Loop r owner stop a s outcome

variable {r : Allocator} {owner : String} {stop a b m : Address} {s : σ} {t : Table}
variable {passed : List Address}

theorem walkLoop (kept : σ → Prop)
    (keeps : ∀ a u v, kept u → Store.reserve owner a u = (.ok false, v) → kept v)
    (last : ∀ steps u, kept u → r.Loop owner stop b u (r.walk owner stop (steps + 1) b u))
    (trail : r.range.Trail b a passed) (apart : ∀ c ∈ passed, c ≠ stop) {steps : Nat}
    (enough : passed.length < steps) (holds : kept s) :
    r.Loop owner stop a s (r.walk owner stop steps a s) := by
  obtain ⟨fuel, rfl⟩ := Nat.exists_eq_succ_of_ne_zero (Nat.ne_zero_of_lt enough)
  induction trail generalizing fuel s with
  | done => exact last fuel s holds
  | @step a passed _ rest ih =>
    rw [List.length_cons] at enough
    obtain ⟨fuel, rfl⟩ := Nat.exists_eq_succ_of_ne_zero (by omega : fuel ≠ 0)
    have differ := apart a List.mem_cons_self
    have further (c : Address) (member : c ∈ passed) := apart c (List.mem_cons_of_mem a member)
    have onward {u : σ} (holds : kept u) := ih further holds fuel (by omega)
    rw [walk, if_neg differ]
    split
    · next member =>
      split
      · exact .failed differ member (by assumption)
      · exact .found differ member (by assumption)
      · next reserved => exact .owned differ member reserved (onward (keeps a _ _ holds reserved))
    · next other => exact .passed differ other (onward holds)

theorem steadyKeeps {a : Address} {u v : σ} (steady : Steady u t)
    (reserved : Store.reserve owner a u = (.ok false, v)) : t.owner? a ≠ none ∧ v = u := by
  have owned : t.owner? a ≠ none := fun unowned =>
    steady.free owner a unowned (congrArg Prod.fst reserved)
  rw [steady.owned owner a owned] at reserved
  exact ⟨owned, (congrArg Prod.snd reserved).symm⟩

theorem walkVacant (steady : Steady s t) (trail : r.range.Trail b a passed)
    (apart : ∀ c ∈ passed, c ≠ stop) (differ : b ≠ stop) (inside : r.range.contains b = true)
    (vacant : r.vacant t b = true) {steps : Nat} (enough : passed.length < steps) :
    r.Loop owner stop a s (r.walk owner stop steps a s) := by
  obtain ⟨member, unowned⟩ := of_decide_eq_true vacant
  refine walkLoop (Steady · t) ?_ ?_ trail apart enough steady
  · rintro c u v steady reserved
    rwa [(steadyKeeps steady reserved).2]
  · intro steps u steady
    rw [walk, if_neg differ, if_pos ⟨member, inside⟩]
    split
    · exact .failed differ ⟨member, inside⟩ (by assumption)
    · exact .found differ ⟨member, inside⟩ (by assumption)
    · next reserved => exact absurd unowned (steadyKeeps steady reserved).1

theorem walkStopped (trail : r.range.Trail stop a passed) {steps : Nat}
    (enough : passed.length < steps) : r.Loop owner stop a s (r.walk owner stop steps a s) := by
  refine walkLoop (fun _ => True) (fun _ _ _ _ _ => trivial) ?_ trail
    (Range.trailApart trail) enough trivial
  intro steps u _
  rw [walk, if_pos rfl]
  exact .stopped

section Whole

variable (family : r.range.stop.family = r.range.start.family)
variable (whole : r.range.start.isZero ∧ r.range.stop.isZero) (inside : r.range.contains m = true)
variable (nonzero : ¬ m.isZero) (steady : Steady s t)
include family whole inside nonzero steady

theorem loopMeets {outcome : Except Fault Address × σ} (loop : r.Loop owner m a s outcome)
    (meets : r.range.Meets m a) : ∃ c, r.range.Meets m c ∧ r.vacant t c = true := by
  have onward {a : Address} (meets : r.range.Meets m a) : r.range.Meets m (r.range.after a) := by
    obtain ⟨there, place⟩ := (Range.meetsIff family whole inside).mp meets
    exact Range.afterMeets family whole inside (by omega) there
  have vacant {a : Address} (differ : a ≠ r.gateway)
      (free : Store.reserve owner a s ≠ (.ok false, s)) : r.vacant t a = true := by
    have unowned : t.owner? a = none := by
      by_contra owned
      exact free (steady.owned owner a owned)
    exact decide_eq_true ⟨differ, unowned⟩
  induction loop with
  | stopped => exact absurd meets (Range.markerUnmet family whole inside nonzero)
  | failed _ member reserved =>
    exact ⟨_, meets, vacant member.1 (by rw [reserved]; simp)⟩
  | found _ member reserved =>
    exact ⟨_, meets, vacant member.1 (by rw [reserved]; simp)⟩
  | owned _ _ reserved _ ih =>
    obtain ⟨_, rfl⟩ := steadyKeeps steady reserved
    exact ih steady (onward meets) vacant
  | passed _ _ _ ih => exact ih steady (onward meets) vacant

theorem walkStands (full : ¬ ∃ c, r.range.Meets m c ∧ r.vacant t c = true)
    (meets : r.range.Meets m a) (steps : Nat) :
    r.walk owner m steps a s = (.error (.endless r.network.name), s) := by
  induction steps generalizing a with
  | zero => rfl
  | succ steps ih =>
    obtain ⟨there, place⟩ := (Range.meetsIff family whole inside).mp meets
    have rest := ih (Range.afterMeets family whole inside (by omega) there)
    have apart : a ≠ m := by
      rintro rfl
      exact Range.markerUnmet family whole inside nonzero meets
    rw [walk, if_neg apart]
    split
    · next member =>
      have owned : t.owner? a ≠ none := fun unowned =>
        full ⟨a, meets, decide_eq_true ⟨member.1, unowned⟩⟩
      rw [steady.owned owner a owned]
      exact rest
    · exact rest

end Whole
end Loops

variable {n : Network} {r : Allocator} {marker : Except Fault (Option Address)}

theorem trailBounds (family : r.range.stop.family = r.range.start.family)
    (straight : ¬ r.range.Stalls marker) :
    ∃ passed, r.range.Trail (r.walkBounds marker).2 (r.walkBounds marker).1 passed ∧
      passed.length ≤ r.range.start.family.space := by
  unfold walkBounds
  split
  · next m =>
    split
    · next inside =>
      refine Range.trailMarker family inside fun whole => ?_
      by_contra nonzero
      exact straight ⟨whole, m, rfl, inside, nonzero⟩
    · exact Range.trailStraight family
  · exact Range.trailStraight family

theorem searchWalk {σ : Type} [Store σ] (owner : String) {s u : σ}
    (inhabited : r.range.isEmpty = false) (asked : Store.lastReserved s = (marker, u)) :
    r.search owner s = r.walk owner (r.walkBounds marker).2 (r.range.start.family.space + 1)
      (r.walkBounds marker).1 u := by
  simp only [search, inhabited, asked, Bool.false_eq_true, if_false]

/-- The search comes to its stop, whatever the store answers, unless it begins after a marker in the
whole of a family. Then the loop has an outcome if and only if there is a free address to meet; the
walk, which counts its steps, reports that there is none. -/
theorem searchEnds (accepted : Allocator.ofNetwork n = .ok r)
    (marker : Except Fault (Option Address)) :
    (r.range.Leads (r.walkBounds marker).1 (r.walkBounds marker).2 ↔ ¬ r.range.Stalls marker) ∧
    ∀ {σ : Type} [Store σ] (owner : String) (s u : σ), r.range.isEmpty = false →
      Store.lastReserved s = (marker, u) →
      (¬ r.range.Stalls marker →
        r.Loop owner (r.walkBounds marker).2 (r.walkBounds marker).1 u (r.search owner s)) ∧
      ∀ (m : Address) (t : Table), marker = .ok (some m) → r.range.Stalls marker → Steady u t →
        ((∃ a, r.range.Meets m a ∧ r.vacant t a = true) →
          r.Loop owner m (r.range.after m) u (r.search owner s)) ∧
        (¬ (∃ a, r.range.Meets m a ∧ r.vacant t a = true) →
          (∀ outcome, ¬ r.Loop owner m (r.range.after m) u outcome) ∧
          (r.search owner s).1 = .error (.endless r.network.name)) := by
  have family := Network.rangeFamily (networkOf accepted).2
  have stalled (stalls : r.range.Stalls marker) :
      (r.range.start.isZero ∧ r.range.stop.isZero) ∧ ∃ m, marker = .ok (some m) ∧
        r.range.contains m = true ∧ ¬ m.isZero ∧ r.walkBounds marker = (r.range.after m, m) := by
    obtain ⟨whole, m, marked, inside, nonzero⟩ := stalls
    exact ⟨whole, m, marked, inside, nonzero, by simp only [marked, walkBounds, if_pos inside]⟩
  refine ⟨⟨?_, ?_⟩, ?_⟩
  · intro leads stalls
    obtain ⟨whole, m, _, inside, nonzero, bounds⟩ := stalled stalls
    rw [bounds] at leads
    exact Range.standsStill family whole inside nonzero leads
  · intro straight
    obtain ⟨passed, trail, _⟩ := trailBounds family straight
    exact Range.leadsTrail.mpr ⟨passed, trail⟩
  intro σ _ owner s u inhabited asked
  have search := searchWalk owner inhabited asked
  refine ⟨?_, ?_⟩
  · intro straight
    obtain ⟨passed, trail, short⟩ := trailBounds family straight
    rw [search]
    exact walkStopped trail (by omega)
  intro m t marked stalls steady
  obtain ⟨whole, other, same, inside, nonzero, bounds⟩ := stalled stalls
  cases marked.symm.trans same
  rw [search, bounds]
  have first := Range.afterMeets family whole inside (.inl (Nat.le_refl m.value))
    (Range.containsFamily inside)
  refine ⟨?_, fun full => ⟨?_, ?_⟩⟩
  · rintro ⟨a, meets, vacant⟩
    obtain ⟨passed, trail, short, apart⟩ := Range.trailMet family whole inside nonzero meets
    have differ : a ≠ m := by
      rintro rfl
      exact Range.markerUnmet family whole inside nonzero meets
    exact walkVacant steady trail apart differ meets.1 vacant (by omega)
  · intro outcome loop
    exact full (loopMeets family whole inside nonzero steady loop first)
  · rw [walkStands family whole inside nonzero steady full first]

def everything (requested : Option Address) : Allocator where
  network := ⟨"net", .around (.wrap .v4 0) 0, some (.wrap .v4 0), some (.wrap .v4 4294967295), none,
    requested, []⟩
  range := ⟨.wrap .v4 0, .wrap .v4 0⟩

theorem everythingStands :
    let lowest : Address := .wrap .v4 0
    let highest : Address := .wrap .v4 4294967295
    let between := ((everything (some lowest)).allocate "a" (Memory.mk false ⟨false, .empty⟩)).2
    let locked := (Store.lock ((everything (some highest)).allocate "a" between).2).2
    Allocator.ofNetwork (everything none).network = .ok (everything none) ∧
      locked.shared.table.toList = [(lowest, "a"), (highest, "a")] ∧
      (∀ outcome, ¬ (everything none).Loop "b" highest ((everything none).range.after highest)
        locked outcome) ∧
      ((everything none).search "b" locked).1 = .error (.endless "net") := by
  intro lowest highest between locked
  have accepted : Allocator.ofNetwork (everything none).network = .ok (everything none) := rfl
  have listed : locked.shared.table.toList = [(lowest, "a"), (highest, "a")] := by decide +kernel
  have owned : locked.shared.table.owner? lowest = some "a" := by decide +kernel
  have asked : Store.lastReserved locked = (.ok (some highest), locked) := by decide +kernel
  have held : locked = Memory.mk true ⟨true, locked.shared.table⟩ := by decide +kernel
  have steady : Steady locked locked.shared.table := by
    have steady := Memory.steady locked.shared.table
    rwa [← held] at steady
  have stalls : (everything none).range.Stalls (.ok (some highest)) :=
    ⟨by decide, highest, rfl, by decide, by decide⟩
  have full : ¬ ∃ a, (everything none).range.Meets highest a ∧
      (everything none).vacant locked.shared.table a = true := by
    rintro ⟨a, ⟨inside, place⟩, vacant⟩
    have here : a.family = .v4 := Range.containsFamily inside
    have top : a.value < Family.v4.space := here ▸ a.bound
    have zero : a = lowest := by
      refine Address.alike here ?_
      rcases place with above | zero
      · rw [Address.ltIff here.symm] at above
        have last : highest.value + 1 = Family.v4.space := by decide
        omega
      · exact beq_iff_eq.mp zero
    rw [zero] at vacant
    have unowned := (of_decide_eq_true vacant).2
    rw [owned] at unowned
    contradiction
  exact ⟨accepted, listed, ((searchEnds accepted _).2 "b" locked locked (by decide) asked).2 highest _
    rfl stalls steady |>.2 full⟩

end Allocator
end AddressPool
