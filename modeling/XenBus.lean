import XenBus.ObjectCache.System
import XenBus.ObjectCache.Sections
import XenBus.ObjectCache.Order
import XenBus.ObjectCache.Slab
import XenBus.Evtchn.Routing
import XenBus.HashTable.BucketLock
import XenBus.RangeSet.Refinement
import XenBus.Store.Response
import XenBus.Sync.Phases
import XenBus.Sync.Agreement
import XenBus.Sync.Rendezvous
import XenBus.ObjectCache.Model
import XenBus.ObjectCache.Ownership
import XenBus.ObjectCache.Audit
import XenBus.ObjectCache.Calls
import XenBus.Gnttab.Model
import XenBus.Gnttab.References
import XenBus.Gnttab.Clients
import XenBus.Gnttab.Expand
import XenBus.Balloon.Accounting
import XenBus.Rings.Lossless
import XenBus.Store.Requests
import XenBus.Store.Stream
import XenBus.Evtchn.Apart
import XenBus.Evtchn.Freeing
import XenBus.Evtchn.Delivery
import XenBus.Fdo.Balloon
import XenBus.Foundations.KeyedQueue
import XenBus.Foundations.VersionedRecord
import XenBus.HashTable.Exclusion
import XenBus.HashTable.Queues
import XenBus.SharedInfo.Conversion
import XenBus.Store.Operations
import XenBus.Store.Sections
import XenBus.Store.Transactions
import XenBus.Store.Watches
import XenBus.Evtchn.Draining
import XenBus.ObjectCache.Blocks
import XenBus.ObjectCache.Pairing
import XenBus.ObjectCache.Teardown
import XenBus.Evtchn.Queueing
import XenBus.Evtchn.Stale
import XenBus.Gnttab.Teardown
import XenBus.Console.Channel
import XenBus.Fdo.Classes
import XenBus.Fdo.HandOver
import XenBus.Fdo.PciHole
import XenBus.Store.WatchIds
import XenBus.Xen.Filters
import XenBus.Xen.NamedPages
import XenBus.Balloon.Scratch
import XenBus.Fdo.Watchdog
import XenBus.Suspend.Count
import XenBus.Gnttab.Revoke
import XenBus.Fdo.Holes
import XenBus.Gnttab.Foreign
import XenBus.Rings.Hostile
import XenBus.Xen.Modules
import XenBus.Foundations.CString
import XenBus.Store.Consumers
import XenBus.Store.Permissions
import XenBus.Foundations.BoundedBuffer
import XenBus.Log.Delivery
import XenBus.Store.Lifetime
import XenBus.Foundations.Hexadecimal
import XenBus.Store.Tokens
import XenBus.Interfaces.Effects
import XenBus.Interfaces.Fifo
import XenBus.Balloon.Sort
import XenBus.Balloon.Refused
import XenBus.Evtchn.Wait
import XenBus.SharedInfo.Poll
import XenBus.Evtchn.EventArray
import XenBus.ObjectCache.Layout
import XenBus.ObjectCache.Spilling
import XenBus.ObjectCache.Creation
import XenBus.Fdo.MemoryHole
import XenBus.Evtchn.Priority
import XenBus.Foundations.Ledger
import XenBus.Foundations.Terminated
import XenBus.Ansi
import XenBus.Fdo.Directory
import XenBus.Registry.Strings
import XenBus.Registry.RoundTrip
import XenBus.Foundations.Tokens
import XenBus.Strtok
import XenBus.Registry.Keys
import XenBus.Foundations.LittleEndian
import XenBus.Acpi.Madt
import XenBus.Acpi.Tables
import XenBus.Fdo.Distribution
import XenBus.Balloon.FreePages
import XenBus.Log.Directives
import XenBus.Interfaces.Counts
import XenBus.Interfaces.Channels
import XenBus.Interfaces.Clients
import XenBus.Interfaces.Slips
import XenBus.Interfaces.AllOrNothing
import XenBus.Foundations.Holdings
import XenBus.Interfaces.Accounts
import XenBus.Interfaces.WorldAccounts
import XenBus.Interfaces.Resume
import XenBus.Interfaces.AbiHeld
import XenBus.Interfaces.ResumeCallbacks
import XenBus.Interfaces.ResumeOrder
import XenBus.Pnp.Devices
import XenBus.Pnp.Sections
import XenBus.Pnp.Enumerate
import XenBus.Pnp.Dispatch
import XenBus.Pnp.Agreement
import XenBus.Pnp.Lifetime
import XenBus.Pnp.Removal
import XenBus.Pnp.Relations
import XenBus.Xen.Unplug
import XenBus.Xenfilt.Emulated
import XenBus.Xenfilt.Devices
import XenBus.Xenfilt.Sections
import XenBus.Xenfilt.Election
import XenBus.Xenfilt.Driver
import XenBus.Xenfilt.Gate
import XenBus.Xenfilt.Ledger
import XenBus.Xenfilt.Answers
