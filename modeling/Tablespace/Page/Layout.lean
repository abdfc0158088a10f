/-!
# The layout of a page

A page of `P` bytes for rows of `t` bytes begins with a **header** of one
bit per slot, rounded up to whole bytes, and goes on with the slots:

* slot `i` is in use if bit `i % 8` of header byte `i / 8` is set;
* slot `i` takes the `t` bytes from `header + i * t` on.

Every slot costs its bytes and one bit, so there are `8 P / (8 t + 1)` of
them, rounded down. Bytes behind the last slot belong to no slot.

Whoever asks how many slots there are for a page and a row of any size gets
the number in words of 64 bits (`slotsPerPage`). There `8 t + 1` wraps for
rows of 2^61 bytes and more.
-/

namespace Tablespace.Layout

/-- The most slots a page may have, so that 16 bits name each of them. -/
def maxSlots : Nat := 65536

/-- **The number of slots** of a page of `page` bytes for rows of `row`
bytes. -/
def slotCount (page row : Nat) : Nat :=
  page * 8 / (row * 8 + 1)

/-- **The number of slots in words** of 64 bits. -/
def slotsPerPage (page row : UInt64) : UInt64 :=
  page * 8 / (row * 8 + 1)

/-- The number of bytes of a header for so many slots. -/
def headerSize (slots : Nat) : Nat :=
  (slots + 7) / 8

/-- Where a slot begins in a page of `page` bytes for rows of `row`
bytes. -/
def slotStart (page row slot : Nat) : Nat :=
  headerSize (slotCount page row) + slot * row

/-- The bit of a slot in its header byte. -/
def mask (slot : Nat) : UInt8 :=
  1 <<< UInt8.ofNat (slot % 8)

end Tablespace.Layout
