import AddressPool.Medium

/-! What others may do to the files of a folder: write, cut, flip or remove them, or put
a folder or a device in their place. Writing keeps the file a name is bound to, replacing
binds the name anew; open handles keep what they hold. A device is one node under all names bound to
it, so that they share its lock. -/
namespace AddressPool.Folder

def settled (bytes : Bytes) : Content := .file bytes bytes.length

def write (name : FileName) (bytes : Bytes) (d : Folder) : Folder :=
  match d.names name with
  | none => (d.create name (settled bytes)).2
  | some id =>
      match d.content? id with
      | some (.file _ _) => d.setContent id (settled bytes)
      | _ => d

def change (name : FileName) (f : Bytes → Bytes) (d : Folder) : Folder :=
  match d.read name with
  | .ok (some bytes) => d.write name (f bytes)
  | _ => d

def extend (name : FileName) (more : Bytes) (d : Folder) : Folder :=
  match d.names name with
  | none => d.write name more
  | some _ => d.change name (· ++ more)

def cutEnd (name : FileName) (count : Nat) (d : Folder) : Folder :=
  d.change name fun bytes => bytes.take (bytes.length - count)

def flip (name : FileName) (offset : Int) (pattern : UInt8) (d : Folder) : Folder :=
  d.change name fun bytes =>
    let place := if offset < 0 then offset + bytes.length else offset
    if place < 0 then bytes else bytes.modify place.toNat (· ^^^ pattern)

def remove (name : FileName) (d : Folder) : Folder := d.bind name none

def replaceByFolder (name : FileName) (d : Folder) : Folder := (d.create name .folder).2

def replaceByDevice (name : FileName) (device : Content) (d : Folder) : Folder :=
  match d.nodes.findIdx? (·.content == device) with
  | some id => d.bind name (some id)
  | none => (d.create name device).2

def removeAll (d : Folder) : Folder := { d with shape := .absent, names := fun _ => none }

def plainInstead (d : Folder) : Folder := { d with shape := .plainFile, names := fun _ => none }

def ensure (d : Folder) : Folder :=
  match d.shape with
  | .absent => { d with shape := .folder }
  | _ => d

end AddressPool.Folder
