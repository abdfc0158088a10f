/-!
# Names of tables, pages, records and transactions

Everything the storage engine talks about has a small numeric name. A
**table** is a 32-bit number; a **page** is a table and the number of the
page inside the table's file; a **record** is a page and one of its slots.
Page numbers and table numbers are 32-bit words and slot numbers are 16-bit
words, because that is the width in which they are handed around: a page
count that does not fit in 32 bits wraps.

Pages are ordered by table first and by number second. That order is what
lists of locked pages are sorted by.
-/

namespace Tablespace

/-- **A table**, named by a 32-bit number. -/
structure TableId where
  /-- The table's number. -/
  number : UInt32
  deriving DecidableEq

/-- The written form of a table's name. -/
def TableId.render (t : TableId) : String :=
  "TableId(" ++ t.number.toNat.repr ++ ")"

/-- **A page**: a table, and the position of the page in the table's file. -/
structure PageId where
  /-- The table the page belongs to. -/
  table : TableId
  /-- The position of the page in the file, from zero. -/
  number : UInt32
  deriving DecidableEq

namespace PageId

/-- The written form of a page's name. -/
def render (p : PageId) : String :=
  "PageId(" ++ p.table.number.toNat.repr ++ ":" ++ p.number.toNat.repr ++ ")"

/-- Pages are ordered by table, then by position. -/
def order (p q : PageId) : Ordering :=
  (compare p.table.number.toNat q.table.number.toNat).then
    (compare p.number.toNat q.number.toNat)

/-- `p` stands at or before `q`. -/
def le (p q : PageId) : Bool :=
  (order p q).isLE

end PageId

/-- **A slot** of a page, a 16-bit word. -/
abbrev SlotId := UInt16

/-- **The place of a record**: a page and a slot of it. -/
structure RecordId where
  /-- The page that holds the record. -/
  page : PageId
  /-- The slot that holds the record. -/
  slot : SlotId
  deriving DecidableEq

/-- The written form of a record's place. -/
def RecordId.render (r : RecordId) : String :=
  "RecordId(" ++ r.page.render ++ ", slot " ++ r.slot.toNat.repr ++ ")"

/-- **A transaction**, numbered in the order of creation. -/
structure TxnId where
  /-- The transaction's number. -/
  number : Nat
  deriving DecidableEq

/-- The written form of a transaction's name. -/
def TxnId.render (t : TxnId) : String :=
  "Txn(" ++ t.number.repr ++ ")"

/-- **How far a transaction has come.** It is active until it is committed
or aborted, and then it stays so. -/
inductive TxnStatus where
  | active
  | committed
  | aborted
  deriving DecidableEq

/-- The written form of a transaction's status. -/
def TxnStatus.render : TxnStatus → String
  | active => "active"
  | committed => "committed"
  | aborted => "aborted"

end Tablespace
