import Tablespace.Assoc
import Tablespace.Locks.WaitGraph
import Tablespace.Turn

/-!
# Page locks

A transaction holds a page **shared** or **exclusive**, or not at all. Any
number of transactions may hold a page shared; one that holds it exclusive
holds it alone.

A request that conflicts with what others hold is **blocked** by them. It
does not wait in a queue: it notes those who block it in the wait graph, and
is asked again when something may have changed. A request whose note would
close a cycle of waiting is refused, and leaves no note. The one whose
request closes the cycle is the one refused; nobody else is disturbed.
-/

namespace Tablespace

/-- **How a page is locked.** -/
inductive LockMode where
  | shared
  | exclusive
  deriving DecidableEq

/-- **The locks that are held, and who waits for whom.** The index says the
same as the other two maps, the other way round. -/
structure LockTable where
  /-- Who holds a page exclusive. -/
  exclusive : Assoc PageId TxnId
  /-- Who hold a page shared. -/
  shared : Assoc PageId (List TxnId)
  /-- The index: the pages that a transaction holds. -/
  held : Assoc TxnId (List PageId)
  /-- The notes of blocked requests. -/
  waits : WaitGraph
  deriving DecidableEq

/-- **The answer to a request for a lock.** -/
inductive LockAnswer where
  | granted
  /-- Others hold the page in a conflicting mode. -/
  | blocked
  /-- Waiting would never end. `holder` is the lowest-numbered of those who
  hold the page. -/
  | deadlock (holder : TxnId)
  deriving DecidableEq

namespace LockTable

/-- The table without locks. -/
def empty : LockTable := ⟨.empty, .empty, .empty, .empty⟩

/-- **How a transaction holds a page.** -/
def mode? (l : LockTable) (t : TxnId) (page : PageId) : Option LockMode :=
  if l.exclusive.get? page = some t then some .exclusive
  else if t ∈ l.shared.group page then some .shared
  else none

/-- The number of locks that are held. -/
def count (l : LockTable) : Nat :=
  l.held.entries.foldr (fun entry n => entry.2.length + n) 0

/-- Whether two tables have the same entries for locks. -/
def sameLocks (l l' : LockTable) : Bool :=
  l.exclusive = l'.exclusive && l.shared = l'.shared

/-- **Those who stand in the way** of a transaction's request: who holds the
page exclusive, and who hold it shared if it is wanted exclusive. -/
def blockers (l : LockTable) (t : TxnId) (page : PageId) (wanted : LockMode) : List TxnId :=
  let sharing := match wanted with
    | .shared => []
    | .exclusive => l.shared.group page
  ((l.exclusive.get? page).toList ++ sharing).filter (· ≠ t)

/-- The table after a request was granted. An exclusive lock takes the place
of a shared one, a shared request does not weaken an exclusive lock, and the
transaction waits no longer. -/
def grant (l : LockTable) (t : TxnId) (page : PageId) (wanted : LockMode) : LockTable :=
  let taken := match wanted with
    | .exclusive =>
      { l with exclusive := l.exclusive.insert page t, shared := l.shared.remove page t }
    | .shared =>
      if l.exclusive.get? page = some t then l else { l with shared := l.shared.add page t }
  { taken with held := taken.held.add t page, waits := taken.waits.drop t }

/-- The table in which a transaction does not hold a page, but for the
index. -/
def remove (l : LockTable) (t : TxnId) (page : PageId) : LockTable :=
  { l with
    exclusive := if l.exclusive.get? page = some t then l.exclusive.erase page else l.exclusive
    shared := l.shared.remove page t }

/-- The lowest-numbered of some transactions. -/
def lowest (t : TxnId) (others : List TxnId) : TxnId :=
  others.foldl (fun a b => if b.number < a.number then b else a) t

/-- **One turn of a request for a lock**: it is granted if nobody stands in
the way; else it notes who does, and is refused if that closes a cycle. -/
def request (l : LockTable) (t : TxnId) (page : PageId) (wanted : LockMode) :
    LockAnswer × LockTable :=
  match l.blockers t page wanted with
  | [] => (.granted, l.grant t page wanted)
  | u :: others =>
    let noted := { l with waits := l.waits.put t (u :: others) }
    if noted.waits.cycleFrom t then
      (.deadlock (lowest u others), { l with waits := l.waits.drop t })
    else (.blocked, noted)

/-- **Asks for a lock**, and waits or is refused if it is not to be had. -/
def acquire (t : TxnId) (page : PageId) (wanted : LockMode) : Turn LockTable Unit :=
  .ofFn fun l =>
    let r := l.request t page wanted
    (match r.1 with
      | .granted => .ok ()
      | .blocked => .error .wait
      | .deadlock holder => .error (.fault (.deadlock t holder)), r.2)

/-- **Gives up a lock.** -/
def release (l : LockTable) (t : TxnId) (page : PageId) : LockTable :=
  let freed := l.remove t page
  { freed with held := freed.held.remove t page }

/-- **Turns an exclusive lock into a shared one.** Other locks stay as they
are. -/
def downgrade (l : LockTable) (t : TxnId) (page : PageId) : LockTable :=
  if l.exclusive.get? page = some t then
    { l with exclusive := l.exclusive.erase page, shared := l.shared.add page t }
  else l

/-- **Gives up all locks of a transaction**, which waits no longer. Its pages
are those of the index. -/
def releaseAll (l : LockTable) (t : TxnId) : LockTable :=
  let freed := (l.held.group t).foldl (fun l page => l.remove t page)
    { l with held := l.held.erase t }
  { freed with waits := freed.waits.drop t }

/-- **The pages that a transaction holds**, by the index, in order. -/
def pagesOf (l : LockTable) (t : TxnId) : List PageId :=
  (l.held.group t).mergeSort PageId.le

end LockTable

end Tablespace
