import Tablespace.Locks.Table
import Tablespace.Session.Schedule

/-!
# Transactions and their lock requests

Transactions ask for locks, one request at a time, and give them up. A
request that has to wait is set aside; after every step the blocked requests
are settled (`Blocked.settle`), so that the notes of who waits for whom are
up to date when the next step is made.
-/

namespace Tablespace

/-- **A request for a lock.** -/
structure LockRequest where
  /-- Who asks. -/
  txn : TxnId
  /-- The page. -/
  page : PageId
  /-- The mode. -/
  mode : LockMode
  deriving DecidableEq

/-- Asks for the lock of a request once. -/
def LockRequest.ask (r : LockRequest) (l : LockTable) :
    Asked LockRequest (Except Fault Unit) × LockTable :=
  match (LockTable.acquire r.txn r.page r.mode).on l with
  | (.ok (), l') => (.answered (.ok ()), l')
  | (.error (.fault cause), l') => (.answered (.error cause), l')
  | (.error _, l') => (.blocked false r, l')

/-- **The lock table, and the requests that wait.** -/
structure LockClients where
  /-- The locks. -/
  table : LockTable
  /-- The blocked requests. -/
  blocked : List (Blocked LockRequest)
  deriving DecidableEq

namespace LockClients

/-- No locks and no requests. -/
def empty : LockClients := ⟨.empty, []⟩

/-- Whether a transaction has a blocked request. -/
def isBusy (c : LockClients) (t : TxnId) : Bool :=
  c.blocked.any (·.call.txn = t)

/-- **Asks for a lock.** There is no answer if the request has to wait; it
is then known by the ticket. -/
def ask (c : LockClients) (ticket : Nat) (r : LockRequest) :
    Option (Except Fault Unit) × LockClients :=
  match r.ask c.table with
  | (.answered a, l) => (some a, { c with table := l })
  | (.blocked _ r', l) => (none, ⟨l, c.blocked ++ [⟨ticket, r'⟩]⟩)

/-- Changes the locks. -/
def change (c : LockClients) (f : LockTable → LockTable) : LockClients :=
  { c with table := f c.table }

/-- **Settles the blocked requests**, and gives the answers of those that
finished. Every round but the last finishes one of them. -/
def settle (c : LockClients) : List (Nat × Except Fault Unit) × LockClients :=
  let r := Blocked.settle LockRequest.ask (c.blocked.length + 1) c.blocked c.table
  (r.answers, ⟨r.state, r.blocked⟩)

end LockClients

end Tablespace
