import AddressPool.Proofs.Table.Replay

/-! A ledger lists who was given which address, in the order of the giving. It matches a
table if it has every reservation of the table once and no other. -/
namespace AddressPool

abbrev Ledger := List (Address × String)

namespace Table

structure Matches (t : Table) (ledger : Ledger) : Prop where
  distinct : (ledger.map Prod.fst).Nodup
  exact : ∀ a owner, (a, owner) ∈ ledger ↔ t.owner? a = some owner

theorem matchesEmpty : empty.Matches [] := ⟨List.nodup_nil, by simp⟩

theorem matchesPut {t : Table} {ledger : Ledger} (same : t.Matches ledger) {a : Address}
    (unowned : t.owner? a = none) (owner : String) :
    (t.put a owner).Matches (ledger ++ [(a, owner)]) where
  distinct := by
    rw [List.map_append, List.nodup_append]
    refine ⟨same.distinct, by simp, ?_⟩
    intro b given c last equal
    simp only [List.map_cons, List.map_nil, List.mem_singleton] at last
    subst equal last
    obtain ⟨⟨_, other⟩, member, rfl⟩ := List.mem_map.mp given
    have owned := (same.exact _ other).mp member
    rw [unowned] at owned
    contradiction
  exact b other := by
    rw [List.mem_append, same.exact, List.mem_singleton, Prod.mk.injEq, ownerPut]
    by_cases here : a = b
    · subst here
      simp [unowned, eq_comm]
    · simp [here, Ne.symm here]

theorem matchesFree {t : Table} {ledger : Ledger} (same : t.Matches ledger) (i : Inverse t)
    (owner : String) :
    (t.freeAll (t.addressesOf owner)).Matches (ledger.filter (·.2 != owner)) where
  distinct := same.distinct.sublist ((List.filter_sublist).map Prod.fst)
  exact a other := by
    simp only [List.mem_filter, same.exact, bne_iff_ne, ownerFreeAll, memAddressesOf i]
    by_cases mine : t.owner? a = some owner
    · simp only [mine, if_true, Option.some.injEq]
      constructor
      · rintro ⟨rfl, differ⟩
        contradiction
      · intro nobody
        contradiction
    · rw [if_neg mine]
      constructor
      · exact And.left
      · intro owned
        refine ⟨owned, ?_⟩
        rintro rfl
        exact mine owned

theorem Matches.perm {t : Table} {ledger : Ledger} (same : t.Matches ledger) :
    t.toList.Perm ledger := by
  have listed : t.toList.Nodup := by
    refine t.distinctRecords.imp ?_
    rintro one other apart rfl
    contradiction
  have entered : ledger.Nodup := by
    refine (List.pairwise_map.mp same.distinct).imp ?_
    rintro one other apart rfl
    contradiction
  rw [List.perm_ext_iff_of_nodup listed entered]
  rintro ⟨a, owner⟩
  rw [memToList, same.exact]

end Table
end AddressPool
