import Tablespace.Ids
import Tablespace.AggregateFn
import Tablespace.Value.Basic

/-!
# What can go wrong

A `Fault` says why an operation was refused. Its constructors are the
causes, with what each of them is about; `Fault.render` is the one place
that puts them into words. Three kinds of fault have causes of their own:
what does not fit a schema (`Mismatch`), what is wrong with a page
(`Corruption`), and what is wrong with a configuration (`ConfigFlaw`).
-/

namespace Tablespace

/-- **Why values, bytes or rows do not fit a schema.** -/
inductive Mismatch where
  /-- The value cannot be written into a column of the type. -/
  | cannotStore (v : Value) (type : DataType)
  /-- Fewer bytes are left than the type takes. -/
  | tooFewBytes (type : DataType) (left : Nat)
  /-- The number of values is not the number of columns. -/
  | valueCount (expected got : Nat)
  /-- A named column cannot hold the value. -/
  | columnValue (column : String) (type : DataType) (v : Value)
  /-- The room for a row is not as long as the row. -/
  | slotLength (slot row : Nat)
  /-- Two schemas that were to be exchanged have different column types. -/
  | layouts
  /-- The row has other column types than the page. -/
  | pageLayout (page : PageId)
  /-- The row has other column types than the table. -/
  | tableLayout (table : TableId)
  /-- The value to be aggregated is no integer. -/
  | notInteger (v : Value)
  /-- The row or schema has no column at the position. -/
  | noColumn (position : Nat)
  deriving DecidableEq

/-- The words for a mismatch. -/
def Mismatch.render : Mismatch → String
  | cannotStore v type => "cannot store " ++ v.render ++ " in a " ++ type.render ++ " column"
  | tooFewBytes type left =>
    type.render ++ " needs " ++ type.size.repr ++ " bytes, " ++ left.repr ++ " remain"
  | valueCount expected got => "expected " ++ expected.repr ++ " values, got " ++ got.repr
  | columnValue column type v =>
    "column " ++ column ++ " of type " ++ type.render ++ " cannot hold " ++ v.render
  | slotLength slot row => "slot is " ++ slot.repr ++ " bytes, tuple needs " ++ row.repr
  | layouts => "schemas have different column types"
  | pageLayout page => "tuple schema does not match the schema of " ++ page.render
  | tableLayout table => "tuple does not fit the schema of " ++ table.render
  | notInteger v => v.render ++ " is not an integer"
  | noColumn position => "no column " ++ position.repr

/-- **What is wrong with a page.** -/
inductive Corruption where
  /-- Not one row fits into the page. -/
  | tooSmall (page row : Nat)
  /-- The page has more slots than slot numbers can name. -/
  | tooManySlots (slots limit : Nat)
  /-- The file ends before the page does. -/
  | shortRead
  deriving DecidableEq

/-- The words for a corruption. -/
def Corruption.render : Corruption → String
  | tooSmall page row => page.repr ++ " byte page cannot hold a " ++ row.repr ++ " byte tuple"
  | tooManySlots slots limit =>
    slots.repr ++ " slots exceed the limit of " ++ limit.repr
  | shortRead => "short read"

/-- **What is wrong with a configuration.** -/
inductive ConfigFlaw where
  | zeroPageSize
  | zeroCapacity
  | zeroRetryInterval
  /-- Not one row fits into a page. -/
  | pageTooSmall (page row : Nat)
  /-- A page has more slots than slot numbers can name. -/
  | tooManySlots (page slots row limit : Nat)
  deriving DecidableEq

/-- The words for a flaw of a configuration. -/
def ConfigFlaw.render : ConfigFlaw → String
  | zeroPageSize => "page_size must be non-zero"
  | zeroCapacity => "buffer_pool_pages must be non-zero"
  | zeroRetryInterval => "lock_retry_interval must be non-zero"
  | pageTooSmall page row => page.repr ++ " byte pages cannot hold a " ++ row.repr ++ " byte tuple"
  | tooManySlots page slots row limit =>
    page.repr ++ " byte pages hold " ++ slots.repr ++ " tuples of " ++ row.repr ++
      " bytes, more than " ++ limit.repr ++ " slots"

/-- **What the file system refuses.** -/
inductive FileFlaw where
  /-- The file ends before the bytes asked for. -/
  | endOfFile
  /-- The position asked for is one that no file has. -/
  | outOfRange
  /-- The path names a directory. -/
  | isDirectory
  /-- A directory on the way to the file does not exist. -/
  | notFound
  /-- Something on the way to the file is no directory. -/
  | notDirectory
  deriving DecidableEq

/-- The words of the file system. -/
def FileFlaw.render : FileFlaw → String
  | endOfFile => "failed to fill whole buffer"
  | outOfRange => "Invalid argument (os error 22)"
  | isDirectory => "Is a directory (os error 21)"
  | notFound => "No such file or directory (os error 2)"
  | notDirectory => "Not a directory (os error 20)"

/-- **Why an operation was refused.** -/
inductive Fault where
  /-- The lock cannot be waited for, because its holders wait for the
  requester in turn. `holder` is the lowest-numbered of them. -/
  | deadlock (requester holder : TxnId)
  | file (flaw : FileFlaw)
  | corruptPage (page : PageId) (flaw : Corruption)
  /-- A page has to make room, and every page is dirty. -/
  | poolFull
  /-- The row was never stored, or has been given no place. -/
  | missingRecordId
  | tableMismatch (expected found : TableId)
  | recordNotOnPage (record : RecordId) (page : PageId)
  | invalidSlot (slot : Nat)
  | emptySlot (slot : Nat)
  | pageFull
  | tableNotFound (table : TableId)
  | nameNotFound (name : String)
  /-- A stream of rows was asked for a row and has none. -/
  | noSuchElement
  | mismatch (cause : Mismatch)
  | valueTooLong (length room : Nat)
  /-- The column's type does not admit the aggregate function. -/
  | unsupportedAggregate (fn : AggregateFn) (type : DataType)
  /-- A running sum left the range of 64-bit integers. -/
  | overflow (fn : AggregateFn) (sum addend : Int64)
  /-- The transaction has ended before. -/
  | alreadyEnded (txn : TxnId) (status : TxnStatus)
  | config (flaw : ConfigFlaw)
  deriving DecidableEq

/-- **The words for a fault.** -/
def Fault.render : Fault → String
  | deadlock requester holder =>
    "Deadlock detected: " ++ requester.render ++ " would wait on " ++ holder.render
  | file flaw => "I/O error: " ++ flaw.render
  | corruptPage page flaw => "Corrupt page " ++ page.render ++ ": " ++ flaw.render
  | poolFull => "Buffer pool is full, every cached page is dirty"
  | missingRecordId => "Tuple has no record id"
  | tableMismatch expected found =>
    "Tuple belongs to " ++ found.render ++ ", not " ++ expected.render
  | recordNotOnPage record page => record.render ++ " is not stored on " ++ page.render
  | invalidSlot slot => "Invalid slot ID: " ++ slot.repr
  | emptySlot slot => "Slot " ++ slot.repr ++ " is empty"
  | pageFull => "Page is full"
  | tableNotFound table => "Table " ++ table.render ++ " not found"
  | nameNotFound name => "Table " ++ name ++ " not found"
  | noSuchElement => "No more tuples"
  | mismatch cause => "Schema mismatch: " ++ cause.render
  | valueTooLong length room =>
    "Value of " ++ length.repr ++ " bytes does not fit in CHAR(" ++ room.repr ++ ")"
  | unsupportedAggregate fn type =>
    "Aggregate " ++ fn.render ++ " over a " ++ type.render ++
      " column is not supported on this column type"
  | overflow fn sum addend =>
    "Integer overflow: " ++ fn.render ++ " of " ++ sum.toInt.repr ++ " and " ++ addend.toInt.repr
  | alreadyEnded txn status => "Transaction " ++ txn.render ++ " is already " ++ status.render
  | config flaw => "Invalid configuration: " ++ flaw.render

end Tablespace
