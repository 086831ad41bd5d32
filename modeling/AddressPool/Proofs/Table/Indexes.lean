import AddressPool.Table

/-! The two indexes of a table are inverse to each other, and no owner is kept without an
address. Every operation keeps both, so a table is known by its owners and its marker. -/
namespace AddressPool.Table

@[simp] theorem ownerEmpty (a : Address) : empty.owner? a = none := by
  simp [owner?, empty]

@[simp] theorem ownerPut (t : Table) (a b : Address) (owner : String) :
    (t.put a owner).owner? b = if a = b then some owner else t.owner? b := by
  simp [owner?, put, Std.ExtTreeMap.getElem?_insert]

@[simp] theorem heldPut (t : Table) (a : Address) (owner other : String) :
    (t.put a owner).held other = if owner = other then (t.held other).insert a else t.held other := by
  by_cases same : owner = other
  · subst same
    simp [held, put]
  · simp [held, put, Std.ExtTreeMap.getD_insert, same]

theorem freeUnowned {t : Table} {a : Address} (unowned : t.owner? a = none) : t.free a = t := by
  simp only [free, unowned]

theorem ownersFree (t : Table) (a : Address) : (t.free a).owners = t.owners.erase a := by
  cases found : t.owner? a with
  | none =>
    rw [freeUnowned found]
    apply Std.ExtTreeMap.ext_getElem?
    intro b
    rw [Std.ExtTreeMap.getElem?_erase]
    split
    · rename_i same
      rw [← Std.LawfulEqOrd.eq_of_compare same]
      exact found
    · rfl
  | some owner => simp only [free, found]

@[simp] theorem ownerFree (t : Table) (a b : Address) :
    (t.free a).owner? b = if a = b then none else t.owner? b := by
  simp [owner?, ownersFree, Std.ExtTreeMap.getElem?_erase]

@[simp] theorem markerFree (t : Table) (a : Address) : (t.free a).marker = t.marker := by
  unfold free
  split <;> rfl

theorem distinctRecords (t : Table) : t.toList.Pairwise (fun r s => r.1 ≠ s.1) := by
  have distinct := Std.ExtTreeMap.distinct_keys_toList (t := t.owners)
  exact distinct.imp fun apart same => apart (Std.LawfulEqCmp.compare_eq_iff_eq.mpr same)

theorem recordsAscending (t : Table) : t.toList.Pairwise (fun r s => r.1 < s.1) := by
  refine List.Pairwise.imp ?_ (Std.ExtTreeMap.ordered_keys_toList (t := t.owners))
  intro r s less
  exact Nat.compare_eq_lt.mp less

theorem memToList (t : Table) (a : Address) (owner : String) :
    (a, owner) ∈ t.toList ↔ t.owner? a = some owner :=
  Std.ExtTreeMap.mem_toList_iff_getElem?_eq_some

structure Inverse (t : Table) : Prop where
  exact : ∀ a owner, a ∈ t.held owner ↔ t.owner? a = some owner
  inhabited : ∀ (owner : String) (held : Std.ExtTreeSet Address),
    t.holdings[owner]? = some held → held.isEmpty = false

theorem holdingOfInhabited {t : Table} (i : Inverse t) (owner : String) :
    t.holdings[owner]? = if (t.held owner).isEmpty then none else some (t.held owner) := by
  cases found : t.holdings[owner]? with
  | none => simp [held, Std.ExtTreeMap.getD_eq_getD_getElem?, found]
  | some held =>
    have inhabited := i.inhabited owner held found
    simp [Table.held, Std.ExtTreeMap.getD_eq_getD_getElem?, found, inhabited]

theorem sameTable {t u : Table} (i : Inverse t) (j : Inverse u)
    (owners : ∀ a, t.owner? a = u.owner? a) (marker : t.marker = u.marker) : t = u := by
  have sameOwners : t.owners = u.owners := Std.ExtTreeMap.ext_getElem? (fun a => owners a)
  have sameHeld : ∀ owner, t.held owner = u.held owner := by
    intro owner
    apply Std.ExtTreeSet.ext_mem
    intro a
    rw [i.exact, j.exact, owners]
  have sameHoldings : t.holdings = u.holdings := by
    apply Std.ExtTreeMap.ext_getElem?
    intro owner
    rw [holdingOfInhabited i, holdingOfInhabited j, sameHeld]
  cases t
  cases u
  simp_all

theorem inverseEmpty : Inverse empty where
  exact a owner := by simp [held, empty, owner?]
  inhabited owner held found := by simp [empty] at found

theorem inversePut {t : Table} (i : Inverse t) {a : Address} (unowned : t.owner? a = none)
    (owner : String) : Inverse (t.put a owner) where
  exact b other := by
    have before := i.exact b other
    by_cases here : a = b
    · subst here
      by_cases same : owner = other
      · simp [same]
      · simp [same, before, unowned]
    · by_cases same : owner = other
      · simp [same, here, before]
      · simp [same, here, before]
  inhabited other held found := by
    simp only [put, Std.ExtTreeMap.getElem?_insert] at found
    split at found
    · cases Option.some.inj found
      simp
    · exact i.inhabited other held found

theorem heldFree {t : Table} {a : Address} {owner : String} (owned : t.owner? a = some owner)
    (other : String) :
    (t.free a).held other = if owner = other then (t.held other).erase a else t.held other := by
  simp only [free, owned]
  by_cases same : owner = other
  · subst same
    split
    · rename_i last
      rw [if_pos rfl, Std.ExtTreeSet.isEmpty_iff.mp last]
      simp [held]
    · simp [held]
  · split
    · simp [held, Std.ExtTreeMap.getD_erase, same]
    · simp [held, Std.ExtTreeMap.getD_insert, same]

theorem inverseFree {t : Table} (i : Inverse t) (a : Address) : Inverse (t.free a) := by
  cases owned : t.owner? a with
  | none => rwa [freeUnowned owned]
  | some owner =>
    constructor
    · intro b other
      have before := i.exact b other
      by_cases here : a = b
      · subst here
        by_cases same : owner = other
        · simp [heldFree owned, same]
        · simp [heldFree owned, same, before, owned]
      · by_cases same : owner = other
        · simp [heldFree owned, same, here, before]
        · simp [heldFree owned, same, here, before]
    · intro other held found
      simp only [free, owned] at found
      split at found
      · rw [Std.ExtTreeMap.getElem?_erase] at found
        split at found
        · contradiction
        · exact i.inhabited other held found
      · rename_i left
        rw [Std.ExtTreeMap.getElem?_insert] at found
        split at found
        · cases Option.some.inj found
          exact Bool.not_eq_true _ ▸ left
        · exact i.inhabited other held found

@[simp] theorem ownerSetMarker (t : Table) (marker : Option Address) (a : Address) :
    (t.setMarker marker).owner? a = t.owner? a := rfl

theorem inverseSetMarker {t : Table} (i : Inverse t) (marker : Option Address) :
    Inverse (t.setMarker marker) := ⟨i.exact, i.inhabited⟩

end AddressPool.Table
