import AddressPool.Subnet.Reading
import AddressPool.Text.Blank

/-! A network: the subnet that addresses are handed out of, the optional bounds of the
range within it, its gateway, one address insisted on, and routes passed through to
every lease. `validate` accepts a name that can be one folder's name and bounds and a
gateway inside the subnet. -/
namespace AddressPool

structure Route where
  destination : Subnet
  gateway : Option Address
  deriving DecidableEq, Repr

namespace Route

def text (r : Route) : String :=
  match r.gateway with
  | some gateway => r.destination.text ++ " via " ++ gateway.text
  | none => r.destination.text

def ofText (text : String) : Except Fault Route :=
  match Fields.cut ',' text.toList with
  | none => do
      let destination ← Subnet.ofText (String.ofList (Blank.trim text.toList))
      return ⟨destination, none⟩
  | some (front, back) =>
      match Address.ofText? (Blank.trim back) with
      | none => .error (.network (.routeGateway text))
      | some gateway => do
          let destination ← Subnet.ofText (String.ofList (Blank.trim front))
          return ⟨destination, some gateway⟩

end Route

structure Network where
  name : String
  subnet : Subnet
  first : Option Address
  last : Option Address
  gateway : Option Address
  requested : Option Address
  routes : List Route
  deriving DecidableEq, Repr

structure Network.Draft where
  name : Option String := none
  subnet : Option Subnet := none
  first : Option Address := none
  last : Option Address := none
  gateway : Option Address := none
  requested : Option Address := none
  routes : List Route := []
  deriving DecidableEq, Repr

namespace Network

def Draft.complete (d : Draft) : Except Fault Network :=
  match d.subnet with
  | none => .error (.subnet .missing)
  | some subnet =>
      .ok ⟨d.name.getD "default", subnet, d.first, d.last, d.gateway, d.requested, d.routes⟩

def isFolderName (name : String) : Bool :=
  name != "" && name != "." && name != ".." &&
    name.toList.all fun c => c != '/' && c != '\\' && c.toNat != 0

def checkName (name : String) : Except Fault Unit :=
  if isFolderName name then .ok () else .error (.network (.name name))

def checkBound (subnet : Subnet) : Option Address → Except Fault Unit
  | none => .ok ()
  | some bound => subnet.checkInside bound

def validate (n : Network) : Except Fault Unit := do
  checkName n.name
  checkBound n.subnet n.first
  checkBound n.subnet n.last
  match n.gateway with
  | some gateway =>
      if n.subnet.contains gateway then .ok ()
      else .error (.network (.gateway gateway n.subnet))
  | none => .ok ()

def gatewayAddress (n : Network) : Address := n.gateway.getD n.subnet.address.next

end Network

structure Lease where
  address : Address
  mask : Bytes
  gateway : Address
  routes : List Route
  deriving DecidableEq, Repr

namespace Lease

def masked (l : Lease) : Subnet := ⟨l.address, l.mask⟩

def text (l : Lease) : String :=
  "address: " ++ l.masked.text ++ "\ngateway: " ++ l.gateway.text ++
    l.routes.foldl (fun shown route => shown ++ "\nroute: " ++ route.text) ""

end Lease
end AddressPool
