import AddressPool.Allocator
import AddressPool.Volume

/-! One attach or detach event of a container: check the network, open its store, make
one request and close the store, whatever came of it. The request's own fault wins over
one of the closing. -/
namespace AddressPool.Attachment

variable {α : Type}

def settle (result : Except Fault α) (closed : Except Fault Unit) : Except Fault α :=
  match result, closed with
  | .ok _, .error fault => .error fault
  | result, _ => result

def request (settings : StoreSettings) (network : Network)
    (run : Allocator → Disk → Except Fault α × Disk) (v : Volume) : Except Fault α × Volume :=
  match network.validate with
  | .error fault => (.error fault, v)
  | .ok () =>
      match v.openStore settings network.name with
      | (.error fault, v) => (.error fault, v)
      | (.ok store, v) =>
          let disk := v.disk network.name store
          let (result, disk) : Except Fault α × Disk := match Allocator.ofNetwork network with
            | .error fault => (.error fault, disk)
            | .ok allocator => run allocator disk
          let (closed, disk) := disk.close
          (settle result closed, v.setFolder network.name disk.folder)

def attach (settings : StoreSettings) (network : Network) (container : String) (v : Volume) :
    Except Fault Lease × Volume :=
  request settings network (fun allocator => allocator.allocate container) v

def detach (settings : StoreSettings) (network : Network) (container : String) (v : Volume) :
    Except Fault Unit × Volume :=
  request settings network (fun allocator => allocator.release container) v

end AddressPool.Attachment
