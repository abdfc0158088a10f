import Tablespace.Fault

/-!
# Configuration

A configuration says how long a page is, how many pages the cache may hold,
and how long a blocked lock request sleeps before it looks at its lock
again. None of the three may be zero. Whether the pages suit the rows of a
table is looked at when the file of the table is opened.
-/

namespace Tablespace

/-- **A configuration.** -/
structure Config where
  /-- The number of bytes of a page. -/
  pageSize : Nat
  /-- The number of pages that the cache may hold. -/
  capacity : Nat
  /-- How long a blocked lock request sleeps, in microseconds. -/
  retryInterval : Nat
  deriving DecidableEq

namespace Config

/-- **The usual configuration**: pages of 4096 bytes, 50 of them cached,
and ten milliseconds of sleep. -/
def usual : Config := ⟨4096, 50, 10000⟩

/-- **Refuses a configuration that cannot be run with.** -/
def validate (c : Config) : Except Fault Unit :=
  if c.pageSize = 0 then .error (.config .zeroPageSize)
  else if c.capacity = 0 then .error (.config .zeroCapacity)
  else if c.retryInterval = 0 then .error (.config .zeroRetryInterval)
  else .ok ()

end Config

end Tablespace
