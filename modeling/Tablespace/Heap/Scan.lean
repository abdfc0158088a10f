import Tablespace.Pool.Basic

/-!
# Scans of a heap file

A scan gives the rows of a table page by page, in the order of pages and
slots, each with its place. A page is locked shared when the scan comes to
it, and its rows are taken out then; pages without rows are passed over. The
number of pages is looked up anew whenever the scan runs out of rows, so
that pages appended meanwhile are found.

A scan that is cut short keeps its position: the page it could not get is
the next one it asks for. A scan that waits for the lock of a page has made
up its mind about that page: it goes on with it even if the file has become
shorter meanwhile. A scan can also be set aside between two pages. A scan starts
closed, and a closed scan has no rows.
-/

namespace Tablespace

/-- **What is scanned, and for whom.** -/
structure HeapScan where
  /-- The transaction that takes the locks. -/
  txn : TxnId
  /-- The file whose pages are scanned. -/
  file : HeapFile
  deriving DecidableEq

/-- **The position of an open scan.** -/
structure ScanPosition where
  /-- The page to come to next. -/
  next : Nat
  /-- The rows taken out and not yet given. -/
  pending : List Tuple
  /-- Whether the scan waits for the lock of the page. -/
  waiting : Bool := false
  deriving DecidableEq

namespace HeapScan

/-- The position of a scan just opened. -/
def start : ScanPosition := { next := 0, pending := [] }

/-- The state of an open scan: its position, and the engine. -/
abbrev Scanning (α : Type) := Turn (ScanPosition × Engine) α

/-- **Takes the next page**, and puts the scan behind it. Cut short, the scan
stays before the page, and notes whether it waits for it. -/
def take (s : HeapScan) (position : ScanPosition) : Scanning Unit := do
  let page : PageId := ⟨s.file.table, UInt32.ofNat position.next⟩
  let rows : Turn Engine (List Tuple) := do
    let p ← Engine.fetch s.txn page .shared
    Turn.ofExcept p.tuples
  let stay (halt : Halt) : Scanning (List Tuple) := do
    modify fun state => ({ position with waiting := halt = .wait }, state.2)
    throw halt
  let rows ← tryCatch (rows.within (·.2) fun e state => (state.1, e)) stay
  modify fun state => ({ next := position.next + 1, pending := rows }, state.2)

/-- **Takes pages until there is a row to give**, and says whether there is
one. After so many steps the scan is set aside. -/
def fill (s : HeapScan) : (steps : Nat) → Scanning Bool
  | 0 => throw .pause
  | steps + 1 => do
    let (position, e) ← get
    let done := (s.file.pageCount e.volume).toNat ≤ position.next
    if !position.pending.isEmpty then return true
    else if done && !position.waiting then return false
    else
      s.take position
      s.fill steps

/-- **Whether there is a row to give.** At most every page of the file is
looked at, and one that was waited for, unless the steps are limited. -/
def hasNext (s : HeapScan) (steps : Option Nat := none) : Scanning Bool := do
  let (_, e) ← get
  s.fill (steps.getD ((s.file.pageCount e.volume).toNat + 2))

/-- **Gives the next row.** -/
def next (s : HeapScan) (steps : Option Nat := none) : Scanning Tuple := do
  let _ ← s.hasNext steps
  let (position, e) ← get
  match position.pending with
  | [] => Turn.refuse .noSuchElement
  | row :: pending =>
    set ({ position with pending := pending }, e)
    return row

/-- How many rows a scan can still give, at most. -/
def bound (s : HeapScan) (position : ScanPosition) (e : Engine) : Nat :=
  position.pending.length + ((s.file.pageCount e.volume).toNat + 1) * Layout.maxSlots

end HeapScan

end Tablespace
