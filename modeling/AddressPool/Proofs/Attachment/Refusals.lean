import AddressPool.Attachment
import AddressPool.Proofs.Network.Validation
import AddressPool.Proofs.Store.Disk
import AddressPool.Proofs.Store.Faults
import AddressPool.Proofs.Store.Opening

/-! Events on a network whose configuration is at fault. What validation refuses is answered before
the store is opened. Validation lets two things pass that have no range, and for them the answer
comes when the network's folder has been made and its lock file opened. -/
namespace AddressPool

namespace Attachment

variable {α : Type} {settings : StoreSettings} {network : Network} {v : Volume}

structure Blames (settings : StoreSettings) (network : Network) (v : Volume)
    (outcome : Except Fault α × Volume) : Prop where
  early : ∀ fault, network.validate = .error fault →
    fault.isConfigurationFault = true ∧ outcome = (.error fault, v)
  late : network.validate = .ok () → ∀ fault, fault.isConfigurationFault = true →
    (outcome.1 = .error fault ↔
      network.Overlooks fault ∧ ∃ store w, v.openStore settings network.name = (.ok store, w))
  enters : network.validate = .ok () → ∀ fault, fault.isConfigurationFault = true →
    outcome.1 = .error fault → v.Enters outcome.2 network.name
  untouched : ∀ fault, fault.isConfigurationFault = true → outcome.1 = .error fault →
    (v.Untouched outcome.2 ↔ network.validate = .error fault ∨
      ∃ node, (v.folder network.name).find .lock = .ok (some node))

theorem blamesEarly {fault : Fault} (refused : network.validate = .error fault) :
    Blames settings network v (Except.error (α := α) fault, v) where
  early other same := by
    cases refused.symm.trans same
    exact ⟨Network.validateFault refused, rfl⟩
  late accepted := by cases refused.symm.trans accepted
  enters accepted := by cases refused.symm.trans accepted
  untouched other _ answered := by
    cases answered
    exact iff_of_true (fun _ => .refl _) (.inl refused)

theorem blamesLate {outcome : Except Fault α × Volume} (accepted : network.validate = .ok ())
    (answered : ∀ fault, fault.isConfigurationFault = true → outcome.1 = .error fault →
      (network.Overlooks fault ∧ ∃ store w, v.openStore settings network.name = (.ok store, w)) ∧
        v.Enters outcome.2 network.name)
    (refused : ∀ fault, network.Overlooks fault →
      (∃ store w, v.openStore settings network.name = (.ok store, w)) →
        outcome.1 = .error fault) : Blames settings network v outcome where
  early fault same := by cases accepted.symm.trans same
  late _ fault kind :=
    ⟨fun same => (answered fault kind same).1, fun why => refused fault why.1 why.2⟩
  enters _ fault kind same := (answered fault kind same).2
  untouched fault kind same := by
    rw [(answered fault kind same).2.untouchedIff, accepted]
    exact ⟨.inr, fun either => either.resolve_left nofun⟩

theorem settleFaults {result : Except Fault α} {closed : Except Fault Unit}
    (first : FaultsIn Fault.isLater result) (last : FaultsIn Fault.isLater closed) :
    FaultsIn Fault.isLater (settle result closed) := by
  cases result with
  | error fault => exact first
  | ok value =>
    cases closed with
    | error fault =>
      intro other same
      cases same
      exact last fault rfl
    | ok done => exact first

theorem requestBlames (run : Allocator → Disk → Except Fault α × Disk)
    (later : ∀ r s, FaultsIn Fault.isLater (run r s).1) :
    Blames settings network v (request settings network run v) := by
  cases accepted : network.validate with
  | error fault =>
    rw [request, accepted]
    exact blamesEarly accepted
  | ok done =>
    have valid := Network.validated accepted
    rcases Volume.openStoreEnters settings v valid.name with
      ⟨reason, w, failed⟩ | ⟨store, w, opened, unlocked, enters⟩
    · simp only [request, accepted, failed]
      refine blamesLate accepted ?_ ?_
      · rintro _ kind ⟨⟩
        cases kind
      · rintro _ _ ⟨store, w, opened⟩
        cases failed.symm.trans opened
    · have closed : (w.disk network.name store).close = _ := Disk.closeUnlocked unlocked
      have entered : v.Enters (w.setFolder network.name (w.folder network.name)) network.name := by
        refine ⟨?_, fun other apart => ?_⟩
        · rw [Volume.folderSet]
          exact enters.own
        · rw [Volume.folderOther w apart]
          exact enters.others other apart
      simp only [request, accepted, opened]
      cases ranged : network.range with
      | error fault =>
        have overlooked := (Network.rangeOverlooked valid).mp ranged
        have refused : Allocator.ofNetwork network = .error fault := by
          rw [Allocator.ofNetwork, ranged]
          rfl
        simp only [refused, closed]
        refine blamesLate accepted ?_ ?_
        · rintro _ _ ⟨⟩
          exact ⟨⟨overlooked, store, w, opened⟩, entered⟩
        · intro other same _
          cases ranged.symm.trans ((Network.rangeOverlooked valid).mpr same)
          rfl
      | ok range =>
        have made : Allocator.ofNetwork network = .ok ⟨network, range⟩ := by
          rw [Allocator.ofNetwork, ranged]
          rfl
        simp only [made]
        have faults := settleFaults (later ⟨network, range⟩ (w.disk network.name store))
          (Disk.closeFaults (run ⟨network, range⟩ (w.disk network.name store)).2).later
        refine blamesLate accepted ?_ ?_
        · intro fault kind same
          have beyond := faults fault same
          rw [Fault.isLater, kind] at beyond
          cases beyond
        · intro fault same _
          cases ranged.symm.trans ((Network.rangeOverlooked valid).mpr same)

/-- Whether an event's answer lies in the configuration alone, and what it then leaves of the files,
for every configuration and all that the data folder may hold: the fault is answered before anything
is touched, but for two kinds of network, for which the folder is made and the lock file opened. -/
theorem refusalsTold (settings : StoreSettings) (network : Network) (container : String)
    (v : Volume) :
    Blames settings network v (attach settings network container v) ∧
      Blames settings network v (detach settings network container v) :=
  ⟨requestBlames _ fun r s => r.allocateFaults container s,
    requestBlames _ fun r s => r.releaseFaults container s⟩

def backward : Network :=
  ⟨"net", .around (.wrap .v4 0x0A000000) 24, some (.wrap .v4 0x0A00000A),
    some (.wrap .v4 0x0A000005), none, none, []⟩

def narrow : Network :=
  ⟨"net", ⟨.wrap .v4 0x0A000000, [0xFF, 0xFF, 0xFF]⟩, none, none, none, none, []⟩

theorem refusedTouches :
    let v := Volume.empty "/data"
    ((attach {} backward "pod" v).1 =
        .error (.range (.reversed (.wrap .v4 0x0A000005) (.wrap .v4 0x0A00000A))) ∧
      ¬ v.Untouched (attach {} backward "pod" v).2) ∧
    ((detach {} narrow "pod" v).1 = .error (.subnet (.maskWidth (.wrap .v4 0x0A000000) 3)) ∧
      ¬ v.Untouched (detach {} narrow "pod" v).2) := by
  intro v
  have fresh : v.folder "net" = .absent := by simp [v, Volume.empty, Volume.folder]
  have opens : ∃ store w, v.openStore {} "net" = (.ok store, w) := by
    have checked : Network.checkName "net" = .ok () := rfl
    have opened : (v.openStore {} "net").1 = .ok ⟨v.path "net", {}, some ⟨0, 0⟩, none⟩ := by
      simp only [Volume.openStore, checked, fresh]
      rfl
    exact ⟨_, (v.openStore {} "net").2, Prod.ext opened rfl⟩
  have unfound : ¬ ∃ node, (v.folder "net").find .lock = .ok (some node) := by
    rw [fresh]
    rintro ⟨node, found⟩
    cases found
  constructor
  · have told := (refusalsTold {} backward "pod" v).1
    have accepted : backward.validate = .ok () := by decide +kernel
    have answered := (told.late accepted _ rfl).mpr ⟨.reversed rfl (by decide +kernel), opens⟩
    refine ⟨answered, ?_⟩
    rw [told.untouched _ rfl answered, accepted]
    rintro (none | there)
    · cases none
    · exact unfound there
  · have told := (refusalsTold {} narrow "pod" v).2
    have accepted : narrow.validate = .ok () := by decide +kernel
    have answered := (told.late accepted _ rfl).mpr ⟨.width (by decide) rfl rfl rfl, opens⟩
    refine ⟨answered, ?_⟩
    rw [told.untouched _ rfl answered, accepted]
    rintro (none | there)
    · cases none
    · exact unfound there

end Attachment
end AddressPool
