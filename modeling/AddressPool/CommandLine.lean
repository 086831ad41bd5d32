import AddressPool.Attachment
import AddressPool.CommandLine.Options

/-! The command line: `allocate`, `release` and `list` on the networks of a data folder.
Options of the program come before the command, those of a command after it, each at most
once but for routes. -/
namespace AddressPool.CommandLine

def programName : String := "hostlocal"

def version : String := "0.1.0"

inductive Command where
  | allocate (network : Network.Draft) (owner : String)
  | release (network : Network.Draft) (owner : String)
  | list (name : String)
  deriving DecidableEq, Repr

structure Invocation where
  root : String
  settings : StoreSettings
  command : Command
  deriving DecidableEq, Repr

structure General where
  root : Option String := none
  onUnlock : Bool := false
  threshold : Option Nat := none

structure Specific where
  network : Network.Draft := {}
  owner : Option String := none

def once {τ α : Type} (get : τ → Option α) (put : α → τ → τ) (value : Option α) (found : τ) :
    Option τ :=
  match get found, value with
  | none, some value => some (put value found)
  | _, _ => none

def numberLimit : Nat := 18446744073709551615

def generalRules : List (Rule General) := [
  ⟨"data-dir", some 'd', .value fun text =>
    once General.root (fun root g => { g with root })
      (if text = "" then none else some text)⟩,
  ⟨"sync-on-unlock", none, .flag fun g =>
    if g.onUnlock then none else some { g with onUnlock := true }⟩,
  ⟨"compact-threshold", none, .value fun text =>
    once General.threshold (fun threshold g => { g with threshold })
      (Numeral.read numberLimit text.toList).toOption⟩,
  ⟨"version", some 'V', .version⟩]

def addressRule (name : String) (get : Network.Draft → Option Address)
    (put : Address → Network.Draft → Network.Draft) : Rule Specific :=
  ⟨name, none, .value fun text =>
    once (fun s => get s.network) (fun a s => { s with network := put a s.network })
      (Address.ofText? text.toList)⟩

def nameRule : Rule Specific :=
  ⟨"name", some 'n', .value fun text =>
    once (fun s => s.network.name) (fun name s => { s with network.name := some name }) (some text)⟩

def subnetRule : Rule Specific :=
  ⟨"subnet", some 's', .value fun text =>
    once (fun s => s.network.subnet) (fun subnet s => { s with network.subnet := some subnet })
      (Subnet.ofText text).toOption⟩

def ownerRule : Rule Specific :=
  ⟨"container-id", none, .value fun text =>
    once Specific.owner (fun owner s => { s with owner }) (some text)⟩

def routeRule : Rule Specific :=
  ⟨"route", none, .value fun text s =>
    (Route.ofText text).toOption.map fun route =>
      { s with network.routes := s.network.routes ++ [route] }⟩

def releaseRules : List (Rule Specific) := [nameRule, subnetRule, ownerRule]

def allocateRules : List (Rule Specific) := releaseRules ++ [
  addressRule "range-start" (·.first) fun a n => { n with first := a },
  addressRule "range-end" (·.last) fun a n => { n with last := a },
  addressRule "gateway" (·.gateway) fun a n => { n with gateway := a },
  addressRule "ip" (·.requested) fun a n => { n with requested := a },
  routeRule]

def readSpecific (rules : List (Rule Specific)) (arguments : List String) :
    Except Stop Specific :=
  (read rules (fun _ => false) arguments {}).map Prod.fst

def readRequest (make : Network.Draft → String → Command) (rules : List (Rule Specific))
    (arguments : List String) : Except Stop Command := do
  let s ← readSpecific rules arguments
  match s.network.name, s.network.subnet, s.owner with
  | some _, some _, some owner => return make s.network owner
  | _, _, _ => throw .refused

def readCommand (name : String) (arguments : List String) : Except Stop Command :=
  match name with
  | "allocate" => readRequest .allocate allocateRules arguments
  | "release" => readRequest .release releaseRules arguments
  | "list" => do
      let s ← readSpecific [nameRule] arguments
      match s.network.name with
      | some name => return .list name
      | none => throw .refused
  | _ => throw .refused

def commands : List String := ["allocate", "release", "list"]

def parse (arguments : List String) : Except Stop Invocation := do
  let (general, command) ← read generalRules (commands.contains ·) arguments {}
  match command with
  | none => throw .refused
  | some (name, arguments) =>
      let command ← readCommand name arguments
      let settings : StoreSettings :=
        ⟨if general.onUnlock then .onUnlock else .everyWrite,
          general.threshold.getD ({} : StoreSettings).threshold⟩
      return ⟨general.root.getD Volume.defaultRoot, settings, command⟩

def Command.network? : Command → Option String
  | .allocate draft _ | .release draft _ =>
      match draft.complete with
      | .error _ => none
      | .ok network => if network.validate = .ok () then some network.name else none
  | .list name => if Network.isFolderName name then some name else none

structure Report where
  status : Nat
  output : String
  fault : Option Fault
  deriving DecidableEq, Repr

def Report.of (result : Except Fault String) : Report :=
  match result with
  | .ok output => ⟨0, output, none⟩
  | .error fault => ⟨1, "", some fault⟩

def reservationLines (reservations : List (Address × String)) : String :=
  reservations.foldl (fun shown (a, owner) => shown ++ a.text ++ "\t" ++ owner ++ "\n") ""

def listing (settings : StoreSettings) (name : String) (v : Volume) :
    Except Fault (List (Address × String)) × Volume :=
  match v.openStore settings name with
  | (.error fault, v) => (.error fault, v)
  | (.ok store, v) =>
      match (v.disk name store).lock with
      | (.error fault, disk) => (.error fault, v.setFolder name disk.close.2.folder)
      | (.ok (), disk) =>
          let reservations := disk.reservations
          let (closed, disk) := disk.close
          let v := v.setFolder name disk.folder
          match closed with
          | .error fault => (.error fault, v)
          | .ok () => (reservations, v)

def runCommand (settings : StoreSettings) (command : Command) (v : Volume) :
    Except Fault String × Volume :=
  match command with
  | .allocate draft owner =>
      match draft.complete with
      | .error fault => (.error fault, v)
      | .ok network =>
          let (result, v) := Attachment.attach settings network owner v
          (result.map fun lease => lease.text ++ "\n", v)
  | .release draft owner =>
      match draft.complete with
      | .error fault => (.error fault, v)
      | .ok network =>
          let (result, v) := Attachment.detach settings network owner v
          (result.map fun _ => "", v)
  | .list name =>
      let (result, v) := listing settings name v
      (result.map reservationLines, v)

def run (arguments : List String) (v : Volume) : Report × Volume :=
  match parse arguments with
  | .error .refused => (⟨2, "", none⟩, v)
  | .error .version => (⟨0, programName ++ " " ++ version ++ "\n", none⟩, v)
  | .ok invocation =>
      let (result, v) := runCommand invocation.settings invocation.command v
      (.of result, v)

end AddressPool.CommandLine
