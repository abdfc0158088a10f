import Tablespace.Pool.Basic

/-!
# The end of a transaction

A transaction ends by commit or by abort. **Commit** writes every page that
is dirty for it; **abort** replaces each of them by a fresh copy from its
file. Either way it gives up all its locks afterwards, whatever came of it.

A commit can fail at one page, after it has written others. Those not yet
written are then replaced as in an abort, and those written stay written.
A page that cannot be read again is left out of the cache. Should a page not
be as long as the pages of the file that it is to be written to, the end is
not reached at all: this is a breach, and the transaction keeps its locks.
-/

namespace Tablespace

namespace Engine

/-- Replaces one page of the cache by a fresh copy. -/
def restorePage (page : PageId) : Turn Engine Unit := do
  modify fun e => e.discard page
  let p ← Turn.ofExcept ((← get).readPage page)
  modify fun e => e.keep p

/-- Replaces pages by fresh copies, all of them; the first that cannot be
read again is at fault. -/
def restoreAll : List PageId → Turn Engine Unit
  | [] => return
  | page :: pages => Turn.ofFn fun e =>
    let first := (restorePage page).on e
    let rest := (restoreAll pages).on first.2
    (first.1.bind fun _ => rest.1, rest.2)

/-- **Replaces every page that is dirty for a transaction** by a fresh
copy. -/
def restorePages (t : TxnId) : Turn Engine Unit := do
  restoreAll ((← get).cache.pagesWith (dirtyFor t))

/-- The engine after a transaction has given up its locks. -/
def releaseAll (e : Engine) (t : TxnId) : Engine :=
  e.changeLocks (·.releaseAll t)

/-- **Commits a transaction.** -/
def commit (t : TxnId) : Turn Engine Unit := .ofFn fun e =>
  match (flushPages t).on e with
  | (.ok (), flushed) => (.ok (), flushed.releaseAll t)
  | (.error .breach, flushed) => (.error .breach, flushed)
  | (.error halt, flushed) =>
    (.error halt, ((restorePages t).on flushed).2.releaseAll t)

/-- **Aborts a transaction.** -/
def abort (t : TxnId) : Turn Engine Unit := .ofFn fun e =>
  let restored := (restorePages t).on e
  (restored.1, restored.2.releaseAll t)

end Engine

end Tablespace
