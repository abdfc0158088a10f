import Tablespace.Cache
import Tablespace.Catalog
import Tablespace.Locks.Table

/-!
# The engine

The engine is what all transactions share: the files, the catalog that finds
the file of a table, the page locks, and a cache of pages. The cache holds
pages by their own names. A page in the cache is **clean** if it agrees with
its file, or **dirty** for the transaction that changed it.

A page is brought into the cache by a **load**, and loads are numbered. Two
copies of one page in the cache at different times are told apart by the
load that brought them: whoever keeps a page in hand has the page in the
cache only as long as the load is the same (`Engine.frame?`).
-/

namespace Tablespace

/-- **A page in the cache**, and the load that brought it. -/
structure Frame where
  /-- The page. -/
  page : Page
  /-- Which load brought it. -/
  load : Nat
  deriving DecidableEq

/-- **What all transactions share.** -/
structure Engine where
  /-- The files. -/
  volume : Volume
  /-- The tables and their files. -/
  catalog : Catalog
  /-- The page locks. -/
  locks : LockTable
  /-- The pages at hand. -/
  cache : Cache Frame
  /-- How many loads there were. -/
  loads : Nat
  /-- How many pages the cache may hold. -/
  capacity : Nat

namespace Engine

/-- **The engine at its start**, over files and a catalog. The configuration
must be one that can be run with. -/
def start (c : Config) (volume : Volume) (catalog : Catalog) : Except Fault Engine := do
  c.validate
  return ⟨volume, catalog, .empty, .empty, 0, c.capacity⟩

/-- The engine without files or tables, which can cache one page. -/
def idle : Engine :=
  ⟨.empty, .empty, .empty, .empty, 0, 1⟩

/-- The page in the cache, with its load. -/
def frame? (e : Engine) (page : PageId) : Option Frame :=
  e.cache.peek? page

/-- A turn on the locks. -/
def onLocks {α : Type} (x : Turn LockTable α) : Turn Engine α :=
  x.within (·.locks) fun l e => { e with locks := l }

/-- A change of the locks that is always possible. -/
def changeLocks (e : Engine) (f : LockTable → LockTable) : Engine :=
  { e with locks := f e.locks }

/-- A change of the catalog. -/
def changeCatalog (e : Engine) (f : Catalog → Catalog) : Engine :=
  { e with catalog := f e.catalog }

end Engine

end Tablespace
