import Tablespace.Session.Basic
import Tablespace.Locks.Clients
import Tablespace.Proofs.Locks.Modes
import Tablespace.Proofs.Locks.Refinement
import Tablespace.Proofs.Locks.Deadlock
import Tablespace.Proofs.Cache
import Tablespace.Proofs.Codec.Tuple
import Tablespace.Proofs.Engine.Move
import Tablespace.Proofs.Heap.Insertion
import Tablespace.Proofs.Heap.Scan
import Tablespace.Proofs.Operator.Plan
import Tablespace.Proofs.Page.Slots
import Tablespace.Proofs.Pool.Completion
import Tablespace.Proofs.Session.Bystander
import Tablespace.Proofs.Session.FailedCommit
import Tablespace.Proofs.Session.Drain
import Tablespace.Proofs.Session.Ledger
import Tablespace.Proofs.Session.RepeatableScan
import Tablespace.Proofs.Session.Tidy
import Tablespace.Proofs.Session.Transparency
import Tablespace.Proofs.Codec.RoundTrip
import Tablespace.Proofs.Pool.Step
import Tablespace.Proofs.Pool.Tended
import Tablespace.Proofs.Heap.Trial
import Tablespace.Proofs.Pool.Ending
import Tablespace.Proofs.Session.Pooled
import Tablespace.Proofs.Session.Harmless
import Tablespace.Proofs.Heap.FirstFit
import Tablespace.Proofs.Session.Placement
import Tablespace.Proofs.Session.Origin
import Tablespace.Proofs.Codec.Repair
import Tablespace.Proofs.Page.Remains
import Tablespace.Proofs.Operator.Groups
import Tablespace.Proofs.Page.Legible
import Tablespace.Proofs.Operator.Sum
import Tablespace.Proofs.Heap.Listing
import Tablespace.Proofs.Heap.Passage
import Tablespace.Proofs.Session.Resumption
import Tablespace.Proofs.Operator.Reduction
import Tablespace.Proofs.Page.Bounds
import Tablespace.Proofs.Page.Canonical
import Tablespace.Proofs.Disk.Contents
import Tablespace.Proofs.Cache.Linked
import Tablespace.Proofs.Operator.Mirror
import Tablespace.Proofs.Session.Exchange
import Tablespace.Proofs.Catalog
import Tablespace.Proofs.Heading
