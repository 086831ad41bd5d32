import AddressPool.CommandLine
import AddressPool.Medium.Edit
import Std.Time.DateTime.Timestamp

/-! The program. It holds the lock of the network's lock file while it reads the
network's files, runs the request on them as values and writes back what has changed:
first a new snapshot, put in place by renaming, then the journal. -/
namespace AddressPool.Main

def readFile? (path : String) : IO (Option Bytes) := do
  try
    return some (← IO.FS.readBinFile path).data.toList
  catch
    | .noFileOrDirectory .. => return none
    | fault => throw fault

def readFolder (path : String) (clock : Nat) : IO Folder := do
  let mut folder := { Folder.absent with shape := .folder, clock }
  for name in [FileName.lock, .journal, .snapshot] do
    if let some bytes ← readFile? (name.path path) then
      folder := folder.write name bytes
  return folder

def contents? (d : Folder) (name : FileName) : Option Bytes := (d.read name).toOption.bind id

def commonLength (count : Nat) : Bytes → Bytes → Nat
  | a :: front, b :: other => if a = b then commonLength (count + 1) front other else count
  | _, _ => count

def writeChanges (path : String) (old new : Bytes) : IO Unit := do
  let common := commonLength 0 old new
  if common < old.length then
    let file ← IO.FS.Handle.mk path .readWrite
    let _ ← file.read (USize.ofNat common)
    file.truncate
    file.flush
  let file ← IO.FS.Handle.mk path .append
  file.write (new.drop common).toByteArray
  file.flush

def writeFolder (path : String) (old new : Folder) : IO Unit := do
  if let some bytes := contents? new .snapshot then
    if contents? old .snapshot ≠ some bytes then
      let temporary := FileName.temporary.path path
      IO.FS.writeBinFile temporary bytes.toByteArray
      IO.FS.rename temporary (FileName.snapshot.path path)
  if let some bytes := contents? new .journal then
    writeChanges (FileName.journal.path path) ((contents? old .journal).getD []) bytes

def runOn (root network : String) (arguments : List String) : IO CommandLine.Report := do
  let volume := Volume.empty root
  let path := volume.path network
  IO.FS.createDirAll path
  let lock ← IO.FS.Handle.mk (FileName.lock.path path) .append
  lock.lock
  try
    let now ← Std.Time.Timestamp.now
    let folder ← readFolder path now.toMillisecondsSinceUnixEpoch.val.toNat
    let (report, after) := CommandLine.run arguments (volume.setFolder network folder)
    writeFolder path folder (after.folder network)
    return report
  finally
    lock.unlock

def run (arguments : List String) : IO CommandLine.Report := do
  match CommandLine.parse arguments with
  | .error _ => return (CommandLine.run arguments (.empty "")).1
  | .ok invocation =>
      match invocation.command.network? with
      | none => return (CommandLine.run arguments (.empty invocation.root)).1
      | some network => runOn invocation.root network arguments

end AddressPool.Main

def main (arguments : List String) : IO UInt32 := do
  try
    let report ← AddressPool.Main.run arguments
    IO.print report.output
    if let some fault := report.fault then IO.eprintln fault.message
    if report.status = 2 then IO.eprintln "the arguments are not understood"
    return UInt32.ofNat report.status
  catch fault =>
    IO.eprintln ("store IO error: " ++ toString fault)
    return 1
