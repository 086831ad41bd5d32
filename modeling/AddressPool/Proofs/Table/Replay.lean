import AddressPool.Proofs.Table.Indexes

/-! A journaled operation, applied, makes the same change as the call that journaled it: a
reservation of a free address, and a release of all that an owner holds. -/
namespace AddressPool.Table

theorem memAddressesOf {t : Table} (i : Inverse t) (a : Address) (owner : String) :
    a ∈ t.addressesOf owner ↔ t.owner? a = some owner := by
  rw [addressesOf, Std.ExtTreeSet.mem_toList, i.exact]

theorem tryReserveFree {t : Table} {a : Address} (unowned : t.owner? a = none) (owner : String) :
    t.tryReserve owner a = (true, t.put a owner) := by
  simp only [tryReserve, unowned]

theorem tryReserveOwned {t : Table} {a : Address} (owned : t.owner? a ≠ none) (owner : String) :
    t.tryReserve owner a = (false, t) := by
  cases found : t.owner? a with
  | none => contradiction
  | some other => simp only [tryReserve, found]

theorem applyReserve {t : Table} {a : Address} (unowned : t.owner? a = none) (owner : String) :
    t.apply (.reserve a owner) = t.put a owner := by
  rw [apply, freeUnowned unowned]

theorem putDiffers {t : Table} {a : Address} (unowned : t.owner? a = none) (owner : String) :
    t.put a owner ≠ t := by
  intro same
  have owned := ownerPut t a a owner
  rw [same, unowned, if_pos rfl] at owned
  contradiction

@[simp] theorem ownerFreeAll (t : Table) (addresses : List Address) (b : Address) :
    (t.freeAll addresses).owner? b = if b ∈ addresses then none else t.owner? b := by
  induction addresses generalizing t with
  | nil => simp [freeAll]
  | cons a rest ih =>
    have tail := ih (t.free a)
    simp only [freeAll, List.foldl_cons] at tail ⊢
    rw [tail, ownerFree]
    by_cases here : a = b
    · simp [here]
    · simp [Ne.symm here, here]

theorem freeAllDiffers {t : Table} {a : Address} {addresses : List Address} (member : a ∈ addresses)
    {owner : String} (owned : t.owner? a = some owner) : t.freeAll addresses ≠ t := by
  intro same
  have freed := ownerFreeAll t addresses a
  rw [same, owned, if_pos member] at freed
  contradiction

@[simp] theorem markerFreeAll (t : Table) (addresses : List Address) :
    (t.freeAll addresses).marker = t.marker := by
  induction addresses generalizing t with
  | nil => rfl
  | cons a rest ih =>
    have tail := ih (t.free a)
    simpa [freeAll] using tail

theorem inverseFreeAll {t : Table} (i : Inverse t) (addresses : List Address) :
    Inverse (t.freeAll addresses) := by
  induction addresses generalizing t with
  | nil => exact i
  | cons a rest ih => exact ih (inverseFree i a)

theorem freeFromAll {t : Table} {owner : String} {addresses : List Address}
    (owned : ∀ a ∈ addresses, t.owner? a = some owner ∨ t.owner? a = none) :
    addresses.foldl (fun t a => t.freeFrom owner a) t = t.freeAll addresses := by
  induction addresses generalizing t with
  | nil => rfl
  | cons a rest ih =>
    have head : t.freeFrom owner a = t.free a := by
      rcases owned a List.mem_cons_self with mine | nobody
      · rw [freeFrom, if_pos mine]
      · rw [freeFrom, nobody, if_neg (by simp), freeUnowned nobody]
    simp only [List.foldl_cons, head, freeAll]
    apply ih
    intro b member
    rw [ownerFree]
    split
    · exact .inr rfl
    · exact owned b (List.mem_cons_of_mem a member)

theorem applyRelease {t : Table} (i : Inverse t) (owner : String) :
    t.apply (.release owner (t.addressesOf owner)) = t.freeAll (t.addressesOf owner) :=
  freeFromAll fun a member => .inl ((memAddressesOf i a owner).mp member)

theorem freeFromEither (t : Table) (owner : String) (a : Address) :
    t.freeFrom owner a = t.free a ∨ t.freeFrom owner a = t := by
  by_cases mine : t.owner? a = some owner
  · exact .inl (if_pos mine)
  · exact .inr (if_neg mine)

theorem inverseApply {t : Table} (i : Inverse t) (operation : Operation) :
    Inverse (t.apply operation) := by
  cases operation with
  | reserve a owner =>
    exact inversePut (inverseFree i a) (by simp) owner
  | release owner addresses =>
    simp only [apply]
    induction addresses generalizing t with
    | nil => exact i
    | cons a rest ih =>
      apply ih
      rcases freeFromEither t owner a with freed | kept
      · simpa only [freed] using inverseFree i a
      · simpa only [kept] using i

theorem applyAllAppend (t : Table) (front rest : List Operation) :
    t.applyAll (front ++ rest) = (t.applyAll front).applyAll rest := by
  simp [applyAll]

theorem applyAllLast (t : Table) (front : List Operation) (last : Operation) :
    t.applyAll (front ++ [last]) = (t.applyAll front).apply last := by
  simp [applyAll]

theorem inverseApplyAll {t : Table} (i : Inverse t) (operations : List Operation) :
    Inverse (t.applyAll operations) := by
  induction operations generalizing t with
  | nil => exact i
  | cons operation rest ih => exact ih (inverseApply i operation)

theorem sizeFree (t : Table) (a : Address) : (t.free a).size ≤ t.size := by
  rw [size, size, ownersFree]
  exact Std.ExtTreeMap.size_erase_le

theorem sizeFreeAll (t : Table) (addresses : List Address) : (t.freeAll addresses).size ≤ t.size := by
  induction addresses generalizing t with
  | nil => exact Nat.le_refl t.size
  | cons a rest ih => exact Nat.le_trans (ih (t.free a)) (sizeFree t a)

theorem sizePut (t : Table) (a : Address) (owner : String) :
    (t.put a owner).size ≤ t.size + 1 := Std.ExtTreeMap.size_insert_le

theorem sizeApply (t : Table) (operation : Operation) : (t.apply operation).size ≤ t.size + 1 := by
  cases operation with
  | reserve a owner =>
    exact Nat.le_trans (sizePut (t.free a) a owner) (Nat.add_le_add_right (sizeFree t a) 1)
  | release owner addresses =>
    simp only [apply]
    induction addresses generalizing t with
    | nil => exact Nat.le_succ t.size
    | cons a rest ih =>
      refine Nat.le_trans (ih (t.freeFrom owner a)) (Nat.add_le_add_right ?_ 1)
      rcases freeFromEither t owner a with freed | kept
      · simpa only [freed] using sizeFree t a
      · exact Nat.le_of_eq (congrArg size kept)

theorem sizeApplyAll (t : Table) (operations : List Operation) :
    (t.applyAll operations).size ≤ t.size + operations.length := by
  induction operations generalizing t with
  | nil => exact Nat.le_refl t.size
  | cons operation rest ih =>
    have head := sizeApply t operation
    have tail := ih (t.apply operation)
    simp only [applyAll, List.foldl_cons, List.length_cons] at tail ⊢
    omega

theorem ownerApply {t : Table} {operation : Operation} {a : Address} {owner : String}
    (owned : (t.apply operation).owner? a = some owner) :
    t.owner? a = some owner ∨ ∃ b, operation = .reserve b owner := by
  cases operation with
  | reserve b other =>
    simp only [apply, ownerPut, ownerFree] at owned
    split at owned
    · cases Option.some.inj owned
      exact .inr ⟨b, rfl⟩
    · exact .inl owned
  | release other addresses =>
    left
    simp only [apply] at owned
    induction addresses generalizing t with
    | nil => exact owned
    | cons b rest ih =>
      have before := ih owned
      rcases freeFromEither t other b with freed | kept
      · simp only [freed, ownerFree] at before
        split at before
        · contradiction
        · exact before
      · simpa only [kept] using before

theorem ownerApplyAll {t : Table} {operations : List Operation} {a : Address} {owner : String}
    (owned : (t.applyAll operations).owner? a = some owner) :
    t.owner? a = some owner ∨ ∃ b, .reserve b owner ∈ operations := by
  induction operations generalizing t with
  | nil => exact .inl owned
  | cons operation rest ih =>
    rcases ih owned with before | ⟨b, member⟩
    · rcases ownerApply before with old | ⟨b, rfl⟩
      · exact .inl old
      · exact .inr ⟨b, List.mem_cons_self⟩
    · exact .inr ⟨b, List.mem_cons_of_mem operation member⟩

end AddressPool.Table
