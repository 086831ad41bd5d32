import AddressPool.Address
import AddressPool.Address.Text
import AddressPool.Allocator
import AddressPool.Attachment
import AddressPool.Bytes
import AddressPool.Bytes.Checksum
import AddressPool.CommandLine
import AddressPool.CommandLine.Options
import AddressPool.Fault
import AddressPool.Host
import AddressPool.Journal.Entry
import AddressPool.Journal.Frame
import AddressPool.Journal.Payload
import AddressPool.Journal.Recovery
import AddressPool.Journal.Writer
import AddressPool.Main
import AddressPool.Medium
import AddressPool.Medium.Edit
import AddressPool.Network
import AddressPool.Network.Range
import AddressPool.Operation
import AddressPool.Proofs.Address.Text
import AddressPool.Proofs.Allocator.Calls
import AddressPool.Proofs.Allocator.Decision
import AddressPool.Proofs.Allocator.Ending
import AddressPool.Proofs.Allocator.Lease
import AddressPool.Proofs.Allocator.Request
import AddressPool.Proofs.Allocator.Search
import AddressPool.Proofs.Attachment.Refusals
import AddressPool.Proofs.Attachment.Requests
import AddressPool.Proofs.Bytes.Checksum
import AddressPool.Proofs.Journal.Account
import AddressPool.Proofs.Journal.Codec
import AddressPool.Proofs.Journal.Entry
import AddressPool.Proofs.Journal.Payload
import AddressPool.Proofs.Journal.Readers
import AddressPool.Proofs.Journal.Reading
import AddressPool.Proofs.Journal.Scan
import AddressPool.Proofs.Journal.Writer
import AddressPool.Proofs.Medium.Calls
import AddressPool.Proofs.Medium.Effect
import AddressPool.Proofs.Medium.Handles
import AddressPool.Proofs.Medium.Lock
import AddressPool.Proofs.Medium.Spares
import AddressPool.Proofs.Network.Bounds
import AddressPool.Proofs.Network.Interval
import AddressPool.Proofs.Network.Turns
import AddressPool.Proofs.Network.Validation
import AddressPool.Proofs.Session.Boundary
import AddressPool.Proofs.Session.Capacity
import AddressPool.Proofs.Session.Crash
import AddressPool.Proofs.Session.Discipline
import AddressPool.Proofs.Session.DiskStep
import AddressPool.Proofs.Session.Enter
import AddressPool.Proofs.Session.Exclusion
import AddressPool.Proofs.Session.Fairness
import AddressPool.Proofs.Session.Instances
import AddressPool.Proofs.Session.Moves
import AddressPool.Proofs.Session.Pool
import AddressPool.Proofs.Session.Quiet
import AddressPool.Proofs.Session.Refinement
import AddressPool.Proofs.Session.Releasing
import AddressPool.Proofs.Session.Requests
import AddressPool.Proofs.Session.Serving
import AddressPool.Proofs.Session.Step
import AddressPool.Proofs.Session.Undisturbed
import AddressPool.Proofs.Snapshot.Access
import AddressPool.Proofs.Snapshot.Codec
import AddressPool.Proofs.Snapshot.Damage
import AddressPool.Proofs.Snapshot.Reading
import AddressPool.Proofs.Snapshot.RoundTrip
import AddressPool.Proofs.Snapshot.Saving
import AddressPool.Proofs.Store.Agreement
import AddressPool.Proofs.Store.Alteration
import AddressPool.Proofs.Store.Append
import AddressPool.Proofs.Store.Atomic
import AddressPool.Proofs.Store.Commit
import AddressPool.Proofs.Store.Crash
import AddressPool.Proofs.Store.Disk
import AddressPool.Proofs.Store.Faults
import AddressPool.Proofs.Store.Folding
import AddressPool.Proofs.Store.Image
import AddressPool.Proofs.Store.Laws
import AddressPool.Proofs.Store.Load
import AddressPool.Proofs.Store.Opening
import AddressPool.Proofs.Store.Passing
import AddressPool.Proofs.Store.Persist
import AddressPool.Proofs.Store.Record
import AddressPool.Proofs.Store.Recovery
import AddressPool.Proofs.Store.Section
import AddressPool.Proofs.Store.Sparing
import AddressPool.Proofs.Subnet.Mask
import AddressPool.Proofs.Subnet.Membership
import AddressPool.Proofs.Subnet.Numeric
import AddressPool.Proofs.Subnet.Text
import AddressPool.Proofs.Table.Indexes
import AddressPool.Proofs.Table.Ledger
import AddressPool.Proofs.Table.Plain
import AddressPool.Proofs.Table.Replay
import AddressPool.Proofs.Text.Digits
import AddressPool.Proofs.Text.Fields
import AddressPool.Snapshot
import AddressPool.Store
import AddressPool.Store.Disk
import AddressPool.Store.Failing
import AddressPool.Store.Memory
import AddressPool.Subnet
import AddressPool.Subnet.Reading
import AddressPool.Subnet.Text
import AddressPool.Table
import AddressPool.Text.Blank
import AddressPool.Text.Fields
import AddressPool.Text.Hex
import AddressPool.Text.Numeral
import AddressPool.Text.Printable
import AddressPool.Text.Quoted
import AddressPool.Text.Utf8
import AddressPool.Volume
