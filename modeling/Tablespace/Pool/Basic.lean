import Tablespace.Engine

/-!
# Pages through the cache

A page is read and changed only under a lock, and through the cache:
`fetch` takes the lock and gives the page, from the cache or else from the
file of the table that the catalog names. When the cache is full, the clean
page that was touched least recently makes room. A dirty page is never
thrown out; if all pages are dirty, there is no room to be made.

Room is made before the file is looked for. A fetch that fails then has
thrown out a page for nothing; the page was clean and can be read again. A
lock that was taken stays taken.

`fetch` gives the page as it stands. Changes are made to the page in the
cache (`change`) and marked as the transaction's by `install`; a page that
was changed and not marked counts as clean, and its change is lost when it
makes room.
-/

namespace Tablespace

namespace Engine

/-- Whether a page is clean. -/
def clean (frame : Frame) : Bool :=
  !frame.page.isDirty

/-- **Throws out the clean page touched least recently.** -/
def evict : Turn Engine Unit := do
  match (← get).cache.oldest? clean with
  | none => Turn.refuse .poolFull
  | some page => modify fun e => { e with cache := e.cache.erase page }

/-- **Makes room for a page** that is not in the cache, if the cache is
full. -/
def makeRoom (page : PageId) : Turn Engine Unit := do
  let e ← get
  if !e.cache.contains page && e.capacity ≤ e.cache.size then evict

/-- **A fresh copy of a page**, from the file that the catalog names. -/
def readPage (e : Engine) (page : PageId) : Except Fault Page := do
  let file ← e.catalog.file page.table
  file.readPage e.volume page

/-- The engine with a page newly loaded into the cache. -/
def keep (e : Engine) (p : Page) : Engine :=
  { e with cache := e.cache.insert p.id ⟨p, e.loads⟩, loads := e.loads + 1 }

/-- **The page, in the cache** and touched; it is loaded if need be. -/
def load (page : PageId) : Turn Engine Page := do
  match (← get).cache.get? page with
  | some (frame, cache) =>
    modify fun e => { e with cache := cache }
    return frame.page
  | none =>
    makeRoom page
    let p ← Turn.ofExcept ((← get).readPage page)
    modify fun e => e.keep p
    return p

/-- **Locks a page and gives it**, from the cache or from its file. -/
def fetch (t : TxnId) (page : PageId) (mode : LockMode) : Turn Engine Page := do
  onLocks (LockTable.acquire t page mode)
  load page

/-- **Changes a page that was fetched**, in the cache, and gives it as it is
then. What the change did to the page stays even if it failed. -/
def change {α : Type} (p : Page) (f : Page → Except Fault α × Page) : Turn Engine (α × Page) := do
  let r := f p
  modify fun e => { e with cache := e.cache.modify p.id fun frame => { frame with page := r.2 } }
  let a ← Turn.ofExcept r.1
  return (a, r.2)

/-- The engine with a page in the cache, the most recently touched. A page
that was there before is still the same load. -/
def place (e : Engine) (p : Page) : Engine :=
  match e.cache.peek? p.id with
  | some frame => { e with cache := e.cache.insert p.id { frame with page := p } }
  | none => e.keep p

/-- **Marks a page as changed by a transaction**, and touches it. -/
def install (t : TxnId) (p : Page) : Turn Engine Unit := do
  makeRoom p.id
  modify fun e => e.place (p.markDirty (some t))

/-! ## Writing pages back -/

/-- **Writes a page of the cache to its file**, and marks it clean. -/
def writeBack (page : PageId) : Turn Engine Unit := do
  let e ← get
  match e.cache.peek? page with
  | none => return
  | some frame =>
    let file ← Turn.ofExcept (e.catalog.file page.table)
    match file.writePage e.volume frame.page with
    | .error halt => throw halt
    | .ok volume =>
      set { e with
        volume := volume
        cache := e.cache.modify page fun g => { g with page := g.page.markDirty none } }

/-- Whether a page is dirty for a transaction. -/
def dirtyFor (t : TxnId) (frame : Frame) : Bool :=
  frame.page.dirtier = some t

/-- **Writes every page that is dirty for a transaction**, the least
recently touched first, up to the first that cannot be written. -/
def flushPages (t : TxnId) : Turn Engine Unit := do
  ((← get).cache.pagesWith (dirtyFor t)).forM writeBack

/-- **Writes every dirty page**, whoever made it so. -/
def flushAll : Turn Engine Unit := do
  ((← get).cache.pagesWith fun frame => frame.page.isDirty).forM writeBack

/-- **Writes one page if it is dirty**, and says whether it is in the
cache. -/
def flushPage (page : PageId) : Turn Engine Bool := do
  match (← get).cache.peek? page with
  | none => return false
  | some frame =>
    if frame.page.isDirty then writeBack page
    return true

/-- **Throws a page out of the cache** without writing it. -/
def discard (e : Engine) (page : PageId) : Engine :=
  { e with cache := e.cache.erase page }

end Engine

end Tablespace
