import AddressPool.Proofs.Table.Replay

/-! A table against the plain map it stands for: who owns an address, and the marker. Whatever calls
are made, both indexes tell the same, each call makes the change of its plain counterpart, and
tables that stand for the same map are the same. -/
namespace AddressPool

structure Plain where
  owner : Address → Option String
  marker : Option Address

namespace Table

def plain (t : Table) : Plain := ⟨t.owner?, t.marker⟩

inductive Call where
  | tryReserve (owner : String) (a : Address)
  | release (a : Address)
  | apply (operation : Operation)
  | setMarker (marker : Option Address)
  | clear

inductive Reply where
  | reserved (done : Bool)
  | released (owner : Option String)
  | nothing
  deriving DecidableEq

def Call.make : Call → Table → Reply × Table
  | .tryReserve owner a, t => ((t.tryReserve owner a).map .reserved id)
  | .release a, t => (t.release a).map .released id
  | .apply operation, t => (.nothing, t.apply operation)
  | .setMarker marker, t => (.nothing, t.setMarker marker)
  | .clear, t => (.nothing, t.clear)

def afterCalls (t : Table) (calls : List Call) : Table :=
  calls.foldl (fun t call => (call.make t).2) t

end Table

namespace Plain

def empty : Plain := ⟨fun _ => none, none⟩

def give (p : Plain) (a : Address) (owner : String) : Plain :=
  ⟨fun b => if a = b then some owner else p.owner b, some a⟩

def call : Table.Call → Plain → Table.Reply × Plain
  | .tryReserve owner a, p =>
      if p.owner a = none then (.reserved true, p.give a owner) else (.reserved false, p)
  | .release a, p =>
      (.released (p.owner a), { p with owner := fun b => if a = b then none else p.owner b })
  | .apply (.reserve a owner), p => (.nothing, p.give a owner)
  | .apply (.release owner addresses), p =>
      (.nothing, { p with
        owner := fun b => if b ∈ addresses ∧ p.owner b = some owner then none else p.owner b })
  | .setMarker marker, p => (.nothing, { p with marker })
  | .clear, _ => (.nothing, empty)

def afterCalls (p : Plain) (calls : List Table.Call) : Plain :=
  calls.foldl (fun p call => (p.call call).2) p

end Plain

namespace Table

theorem ownerFreeFrom (t : Table) (owner : String) (a b : Address) :
    (t.freeFrom owner a).owner? b =
      if a = b ∧ t.owner? b = some owner then none else t.owner? b := by
  unfold freeFrom
  by_cases here : a = b
  · subst here
    split
    · next mine => simp [mine]
    · next other => simp [other]
  · split <;> simp [here]

theorem markerFreeFrom (t : Table) (owner : String) (a : Address) :
    (t.freeFrom owner a).marker = t.marker := by
  rcases freeFromEither t owner a with freed | kept
  · rw [freed, markerFree]
  · rw [kept]

theorem ownerRelease (t : Table) (owner : String) (addresses : List Address) (b : Address) :
    (t.apply (.release owner addresses)).owner? b =
      if b ∈ addresses ∧ t.owner? b = some owner then none else t.owner? b := by
  simp only [apply]
  induction addresses generalizing t with
  | nil => simp
  | cons a rest ih =>
    simp only [List.foldl_cons, ih, ownerFreeFrom]
    by_cases here : b = a
    · subst here
      by_cases mine : t.owner? b = some owner <;> simp [mine]
    · simp [here, Ne.symm here]

theorem markerRelease (t : Table) (owner : String) (addresses : List Address) :
    (t.apply (.release owner addresses)).marker = t.marker := by
  simp only [apply]
  induction addresses generalizing t with
  | nil => rfl
  | cons a rest ih => rw [List.foldl_cons, ih, markerFreeFrom]

theorem plainOf {t : Table} {p : Plain} (owners : ∀ a, t.owner? a = p.owner a)
    (marker : t.marker = p.marker) : t.plain = p := by
  have same : t.owner? = p.owner := funext owners
  rw [plain, same, marker]

theorem plainPut (t : Table) (a : Address) (owner : String) :
    (t.put a owner).plain = t.plain.give a owner :=
  plainOf (fun b => ownerPut t a b owner) rfl

theorem plainReserve (t : Table) (a : Address) (owner : String) :
    (t.apply (.reserve a owner)).plain = t.plain.give a owner := by
  refine plainOf (fun b => ?_) rfl
  rw [apply, ownerPut, ownerFree]
  split
  · next same => exact (if_pos same).symm
  · next apart => exact (if_neg apart).symm

theorem plainRelease (t : Table) (owner : String) (addresses : List Address) :
    (t.apply (.release owner addresses)).plain =
      (t.plain.call (.apply (.release owner addresses))).2 :=
  plainOf (ownerRelease t owner addresses) (markerRelease t owner addresses)

theorem plainEmpty : empty.plain = Plain.empty := plainOf ownerEmpty rfl

theorem makePlain (t : Table) (call : Call) :
    ((call.make t).1, (call.make t).2.plain) = t.plain.call call := by
  cases call with
  | tryReserve owner a =>
    cases owned : t.owner? a with
    | none =>
      have free : t.plain.owner a = none := owned
      simp only [Call.make, tryReserve, owned, Prod.map, id_eq, plainPut, Plain.call, if_pos free]
    | some other =>
      have taken : t.plain.owner a ≠ none := Option.ne_none_iff_exists'.mpr ⟨other, owned⟩
      simp only [Call.make, tryReserve, owned, Prod.map, id_eq, Plain.call, if_neg taken]
  | release a => exact Prod.ext rfl (plainOf (ownerFree t a) (markerFree t a))
  | apply operation =>
    cases operation with
    | reserve a owner => exact Prod.ext rfl (plainReserve t a owner)
    | release owner addresses => exact Prod.ext rfl (plainRelease t owner addresses)
  | setMarker marker => rfl
  | clear => exact Prod.ext rfl plainEmpty

theorem afterCallsPlain (t : Table) (calls : List Call) :
    (t.afterCalls calls).plain = t.plain.afterCalls calls := by
  induction calls generalizing t with
  | nil => rfl
  | cons call rest ih =>
    have head : (call.make t).2.plain = (t.plain.call call).2 := congrArg Prod.snd (makePlain t call)
    have tail := ih (call.make t).2
    simp only [afterCalls, Plain.afterCalls, List.foldl_cons] at tail ⊢
    rw [tail, head]

theorem inverseMake {t : Table} (i : Inverse t) (call : Call) : Inverse (call.make t).2 := by
  cases call with
  | tryReserve owner a =>
    cases owned : t.owner? a with
    | none =>
      simp only [Call.make, tryReserve, owned, Prod.map_snd, id_eq]
      exact inversePut i owned owner
    | some other =>
      simp only [Call.make, tryReserve, owned, Prod.map_snd, id_eq]
      exact i
  | release a => exact inverseFree i a
  | apply operation => exact inverseApply i operation
  | setMarker marker => exact inverseSetMarker i marker
  | clear => exact inverseEmpty

theorem inverseAfterCalls {t : Table} (i : Inverse t) (calls : List Call) :
    Inverse (t.afterCalls calls) := by
  induction calls generalizing t with
  | nil => exact i
  | cons call rest ih => exact ih (inverseMake i call)

structure Consistent (t : Table) : Prop where
  indexes : Inverse t
  addresses : ∀ owner, (t.addressesOf owner).Pairwise (· < ·) ∧
    ∀ a, a ∈ t.addressesOf owner ↔ t.owner? a = some owner
  records : t.toList.Pairwise (fun r s => r.1 < s.1) ∧
    ∀ a owner, (a, owner) ∈ t.toList ↔ t.owner? a = some owner
  size : t.size = t.toList.length

theorem Inverse.consistent {t : Table} (i : Inverse t) : Consistent t where
  indexes := i
  addresses owner := by
    refine ⟨List.Pairwise.imp ?_ Std.ExtTreeSet.ordered_toList, fun a => memAddressesOf i a owner⟩
    intro a b less
    exact Nat.compare_eq_lt.mp less
  records := ⟨t.recordsAscending, t.memToList⟩
  size := Std.ExtTreeMap.length_toList.symm

/-- Whatever calls made a table, its indexes agree, a further call answers and changes it as it would
the plain map, and another such table is equal to it exactly if it stands for the same map. -/
theorem callsExact (calls : List Call) :
    let t := empty.afterCalls calls
    Consistent t ∧ t.plain = Plain.empty.afterCalls calls ∧
      (∀ call : Call, ((call.make t).1, (call.make t).2.plain) = t.plain.call call) ∧
      ∀ others, (t == empty.afterCalls others) = true ↔
        t.plain = (empty.afterCalls others).plain := by
  intro t
  have inverse (calls : List Call) : Inverse (empty.afterCalls calls) :=
    inverseAfterCalls inverseEmpty calls
  have run := afterCallsPlain empty calls
  rw [plainEmpty] at run
  refine ⟨(inverse calls).consistent, run, makePlain t, ?_⟩
  intro others
  rw [beq_iff_eq]
  constructor
  · intro same
    rw [same]
  · intro same
    obtain ⟨owners, marker⟩ := Plain.mk.inj same
    exact sameTable (inverse calls) (inverse others) (congrFun owners) marker

example : empty.afterCalls
      [.tryReserve "a" (.wrap .v4 1), .apply (.reserve (.wrap .v4 1) "b")] =
    empty.afterCalls [.tryReserve "b" (.wrap .v4 1)] := by decide +kernel

end Table
end AddressPool
