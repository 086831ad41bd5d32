import AddressPool.Host
import AddressPool.Proofs.Journal.Entry

/-! A session: named instances on one network's folder, or over one memory table, and the
calls made on them one after the other. The same steps can be taken on either backing. -/
namespace AddressPool.Session

inductive Backing where
  | disk (network : String)
  | memory
  deriving DecidableEq, Repr

inductive Command where
  | enter (settings : StoreSettings)
  | lock
  | unlock
  | reserve (owner : String) (a : Address)
  | releaseOwner (owner : String)
  | lastReserved
  | reservations
  deriving DecidableEq

structure Step where
  id : String
  time : Nat
  command : Command
  deriving DecidableEq

inductive Answer where
  | missing
  | unasked
  | entered (closed : Option (Except Fault Unit)) (opened : Except Fault Unit)
  | done (result : Except Fault Unit)
  | reserved (result : Except Fault Bool)
  | marker (result : Except Fault (Option Address))
  | listed (result : Except Fault (List (Address × String)))

def Command.change? (t : Table) : Command → Option Operation
  | .reserve owner a => if (t.owner? a).isNone then some (.reserve a owner) else none
  | .releaseOwner owner =>
      match t.addressesOf owner with
      | [] => none
      | addresses => some (.release owner addresses)
  | _ => none

def Step.change? (step : Step) (h : Host) : Option Operation :=
  match h.find? step.id with
  | none => none
  | some i => if i.isLocked then (h.table? i).bind step.command.change? else none

def journalLength? (network : String) (h : Host) (id : String) : Option Nat :=
  match h.find? id with
  | some (.disk _ store) => (h.volume.disk network store).journalLength.toOption
  | _ => none

/-- How many entries a step is to add: one for a reservation that was made, and one for a
release of an owner who has an address. -/
def growth (h : Host) (step : Step) (answer : Answer) : Nat :=
  match step.command, answer with
  | .reserve _ _, .reserved (.ok true) => 1
  | .releaseOwner owner, .done (.ok ()) =>
      match (h.find? step.id).bind h.table? with
      | some table => if (table.addressesOf owner).isEmpty then 0 else 1
      | none => 0
  | _, _ => 0

def ask {α : Type} (id : String) (wrap : α → Answer)
    (run : {σ : Type} → [Store σ] → σ → α × σ) (h : Host) : Answer × Host :=
  match h.call id run with
  | some (result, h) => (wrap result, h)
  | none => (.missing, h)

def list (h : Host) : Instance → Except Fault (List (Address × String))
  | .disk network store => (h.volume.disk network store).reservations
  | .memory table holding => .ok (Memory.mk holding (h.shared table)).reservations

def listing (id : String) (h : Host) : Answer :=
  match h.find? id with
  | none => .missing
  | some i => if i.isLocked then .listed (list h i) else .unasked

namespace Backing

def setTime (b : Backing) (time : Nat) (h : Host) : Host :=
  match b with
  | .disk network => h.edit network fun d => { d with clock := time }
  | .memory => h

def openInstance (b : Backing) (first id : String) (settings : StoreSettings) (h : Host) :
    Except Fault Unit × Host :=
  match b with
  | .disk network => h.openDisk id network settings
  | .memory => (.ok (), h.clone id first)

def enter (b : Backing) (first id : String) (settings : StoreSettings) (h : Host) :
    Answer × Host :=
  match h.call id Store.close with
  | some (closed, h) =>
      let (opened, h) := b.openInstance first id settings h
      (.entered (some closed) opened, h)
  | none =>
      let (opened, h) := b.openInstance first id settings h
      (.entered none opened, h)

def start (b : Backing) (root first : String) (settings : StoreSettings) : Host :=
  match b with
  | .disk network => ((Host.empty root).openDisk first network settings).2
  | .memory => (Host.empty root).openMemory first

def step (b : Backing) (first : String) (step : Step) (h : Host) : Answer × Host :=
  let h := b.setTime step.time h
  match step.command with
  | .enter settings => b.enter first step.id settings h
  | .lock => ask step.id .done Store.lock h
  | .unlock => ask step.id .done Store.unlock h
  | .reserve owner a => ask step.id .reserved (Store.reserve owner a) h
  | .releaseOwner owner => ask step.id .done (Store.releaseOwner owner) h
  | .lastReserved => ask step.id .marker Store.lastReserved h
  | .reservations => (listing step.id h, h)

def run (b : Backing) (first : String) : List Step → Host → List Answer × Host :=
  Host.each (b.step first)

def Fitting (b : Backing) (first : String) : List Step → Host → Prop
  | [], _ => True
  | step :: rest, h =>
      (∀ operation, step.change? h = some operation → operation.Fits) ∧
        b.Fitting first rest (b.step first step h).2

end Backing
end AddressPool.Session
