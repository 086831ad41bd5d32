import AddressPool.Store.Disk

/-! The data folder: one folder for each network, by name. -/
namespace AddressPool

structure Volume where
  root : String
  folders : Std.ExtTreeMap String Folder

namespace Volume

def defaultRoot : String := "/var/lib/cni/networks"

def empty (root : String) : Volume := ⟨root, ∅⟩

def folder (v : Volume) (network : String) : Folder := v.folders.getD network .absent

def setFolder (v : Volume) (network : String) (d : Folder) : Volume :=
  { v with folders := v.folders.insert network d }

def path (v : Volume) (network : String) : String := v.root ++ "/" ++ network

def nameLimit : Nat := 255

def openStore (settings : StoreSettings) (network : String) (v : Volume) :
    Except Fault DiskStore × Volume :=
  match Network.checkName network with
  | .error fault => (.error fault, v)
  | .ok () =>
      if nameLimit < network.utf8ByteSize then (.error (.os .nameTooLong), v)
      else
        let (result, d) := DiskStore.ofFolder (v.path network) settings (v.folder network)
        (result, v.setFolder network d)

def disk (v : Volume) (network : String) (store : DiskStore) : Disk := ⟨store, v.folder network⟩

def isDeviceHeld (v : Volume) (device : Content) : Bool :=
  v.folders.toList.any fun (_, d) => d.isDeviceHeld device

/-- Whether any handle has the lock on what is now a network's lock file. An instance that
locked a file since removed does not hold the network; a device is one for all networks. -/
def isHeld (v : Volume) (network : String) : Bool :=
  let d := v.folder network
  match d.find .lock with
  | .ok (some node) =>
      match d.content? node with
      | some .fullDevice => v.isDeviceHeld .fullDevice
      | some .nullDevice => v.isDeviceHeld .nullDevice
      | _ => (d.holder? node).isSome
  | _ => false

end Volume
end AddressPool
