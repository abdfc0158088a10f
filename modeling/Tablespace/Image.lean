/-!
# Images

The bytes of a page or of a file, addressed by position. Writing goes over
bytes that are there; it neither grows an image nor moves its bytes.
-/

namespace Tablespace

/-- **Bytes addressed by position.** -/
abbrev Image := Array UInt8

namespace Image

/-- The image of so many zeros. -/
def zeros (size : Nat) : Image :=
  Array.replicate size 0

/-- The byte at a position, and zero where there is none. -/
def byte (a : Image) (position : Nat) : UInt8 :=
  a.getD position 0

/-- The bytes of a stretch, as far as it lies in the image. -/
def slice (a : Image) (start length : Nat) : List UInt8 :=
  (a.extract start (start + length)).toList

/-- **The image with bytes written over it** from a position on. Bytes that
would fall behind its end are lost. -/
def write (a : Image) (start : Nat) : List UInt8 → Image
  | [] => a
  | b :: bs => write (a.setIfInBounds start b) (start + 1) bs

/-- Writing does not change the size. -/
@[simp]
theorem size_write (a : Image) (start : Nat) (bs : List UInt8) :
    (a.write start bs).size = a.size := by
  induction bs generalizing a start with
  | nil => rfl
  | cons b bs ih => simp [write, ih]

/-- The sum of the bytes. -/
def checksum (a : Image) : Nat :=
  a.foldl (fun n b => n + b.toNat) 0

end Image

end Tablespace
