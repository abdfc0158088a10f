import Tablespace.Image

/-!
# The content of a file

A file can be far longer than what was ever written to it: a write far
behind its end leaves a **hole**, which reads as zeros and takes no room. The
content of a file is a list of **extents**, each of which is bytes or a hole.

How the bytes are cut into extents means nothing. What a file holds is the
list of its bytes (`FileImage.toList`), and every operation is stated by what
it does to that list.
-/

namespace Tablespace

/-- **An extent of a file**: bytes, or a hole of some length. -/
inductive Extent where
  | bytes (image : Image)
  | hole (length : Nat)
  deriving DecidableEq

namespace Extent

/-- The number of bytes. -/
def size : Extent → Nat
  | bytes image => image.size
  | hole length => length

/-- The bytes; those of a hole are zeros. -/
def toList : Extent → List UInt8
  | bytes image => image.toList
  | hole length => List.replicate length 0

/-- The first bytes, as many as wanted. -/
def take (n : Nat) : Extent → Extent
  | bytes image => bytes (image.extract 0 n)
  | hole length => hole (min n length)

/-- All but the first bytes. -/
def drop (n : Nat) : Extent → Extent
  | bytes image => bytes (image.extract n image.size)
  | hole length => hole (length - n)

/-- The sum of the bytes. -/
def checksum : Extent → Nat
  | bytes image => image.checksum
  | hole _ => 0

@[simp]
theorem length_toList (x : Extent) : x.toList.length = x.size := by
  cases x <;> simp [toList, size]

@[simp]
theorem toList_take (n : Nat) (x : Extent) : (x.take n).toList = x.toList.take n := by
  cases x <;> simp [take, toList]

@[simp]
theorem toList_drop (n : Nat) (x : Extent) : (x.drop n).toList = x.toList.drop n := by
  cases x with
  | bytes image =>
    have all : image.size - n = (image.toList.drop n).length := by simp
    simp only [drop, toList, Array.toList_extract, List.extract_eq_take_drop]
    rw [all, List.take_length]
  | hole length => simp [drop, toList]

/-- The first extents, up to a number of bytes. -/
def takeAll : (n : Nat) → List Extent → List Extent
  | _, [] => []
  | n, x :: xs =>
    if n = 0 then []
    else if x.size ≤ n then x :: takeAll (n - x.size) xs
    else [x.take n]

/-- The extents behind a number of bytes. -/
def dropAll : (n : Nat) → List Extent → List Extent
  | _, [] => []
  | n, x :: xs =>
    if n = 0 then x :: xs
    else if x.size ≤ n then dropAll (n - x.size) xs
    else x.drop n :: xs

/-- Cutting extents short cuts their bytes short. -/
theorem flatMap_takeAll (n : Nat) (xs : List Extent) :
    (takeAll n xs).flatMap toList = (xs.flatMap toList).take n := by
  induction xs generalizing n with
  | nil => simp [takeAll]
  | cons x xs ih =>
    rw [takeAll, List.flatMap_cons, List.take_append, length_toList]
    split
    · simp [*]
    · split
      · rename_i le
        have whole : x.toList.length ≤ n := by rw [length_toList]; exact le
        rw [List.flatMap_cons, ih, List.take_of_length_le whole]
      · rename_i lt
        have none : n - x.size = 0 := by omega
        rw [none]
        simp

/-- Leaving out extents leaves out their bytes. -/
theorem flatMap_dropAll (n : Nat) (xs : List Extent) :
    (dropAll n xs).flatMap toList = (xs.flatMap toList).drop n := by
  induction xs generalizing n with
  | nil => simp [dropAll]
  | cons x xs ih =>
    rw [dropAll, List.flatMap_cons, List.drop_append, length_toList]
    split
    · simp [*]
    · split
      · rename_i le
        have whole : x.toList.length ≤ n := by rw [length_toList]; exact le
        rw [ih, List.drop_eq_nil_of_le whole, List.nil_append]
      · rename_i lt
        have none : n - x.size = 0 := by omega
        rw [List.flatMap_cons, toList_drop, none, List.drop_zero]

end Extent

/-- **The content of a file.** -/
structure FileImage where
  /-- The extents, one behind the other. -/
  extents : List Extent
  deriving DecidableEq

namespace FileImage

/-- The content of an empty file. -/
def empty : FileImage := ⟨[]⟩

/-- The content of a file that was written in one piece. -/
def ofImage (image : Image) : FileImage :=
  ⟨[.bytes image]⟩

variable (file : FileImage)

/-- **The bytes of a file.** -/
def toList : List UInt8 :=
  file.extents.flatMap Extent.toList

/-- The number of bytes. -/
def size : Nat :=
  file.extents.foldr (fun x n => x.size + n) 0

/-- The bytes of a file in one piece. -/
def toImage : Image :=
  file.extents.foldl (fun image x => image ++ x.toList.toArray) #[]

/-- One file behind the other. -/
def append (other : FileImage) : FileImage :=
  ⟨file.extents ++ other.extents⟩

/-- The file cut to a length. -/
def take (n : Nat) : FileImage :=
  ⟨Extent.takeAll n file.extents⟩

/-- The file without its first bytes. -/
def drop (n : Nat) : FileImage :=
  ⟨Extent.dropAll n file.extents⟩

/-- **The file at another length**: cut short, or made longer by a hole. -/
def resize (n : Nat) : FileImage :=
  if n ≤ file.size then file.take n else ⟨file.extents ++ [.hole (n - file.size)]⟩

/-- **The file with bytes written over it** from a position on. The file
grows as far as it has to; a gap behind its old end is a hole. -/
def write (start : Nat) (bytes : List UInt8) : FileImage :=
  ⟨(file.resize start).extents ++ .bytes bytes.toArray :: (file.drop (start + bytes.length)).extents⟩

/-- The sum of the bytes. -/
def checksum : Nat :=
  file.extents.foldr (fun x n => x.checksum + n) 0

/-! ## What the operations do to the bytes -/

@[simp]
theorem toList_empty : empty.toList = [] :=
  rfl

@[simp]
theorem toList_ofImage (image : Image) : (ofImage image).toList = image.toList := by
  simp [ofImage, toList, Extent.toList]

/-- The number of bytes is the number of bytes listed. -/
@[simp]
theorem length_toList : file.toList.length = file.size := by
  rw [toList, size]
  induction file.extents with
  | nil => rfl
  | cons x xs ih =>
    rw [List.flatMap_cons, List.length_append, ih, Extent.length_toList]
    rfl

@[simp]
theorem toList_toImage : file.toImage.toList = file.toList := by
  have go (xs : List Extent) (image : Image) :
      (xs.foldl (fun image x => image ++ x.toList.toArray) image).toList
        = image.toList ++ xs.flatMap Extent.toList := by
    induction xs generalizing image with
    | nil => simp
    | cons x xs ih => rw [List.foldl_cons, ih]; simp
  exact (go file.extents #[]).trans (List.nil_append _)

@[simp]
theorem toList_append (other : FileImage) :
    (file.append other).toList = file.toList ++ other.toList :=
  List.flatMap_append

@[simp]
theorem toList_take (n : Nat) : (file.take n).toList = file.toList.take n :=
  Extent.flatMap_takeAll ..

@[simp]
theorem toList_drop (n : Nat) : (file.drop n).toList = file.toList.drop n :=
  Extent.flatMap_dropAll ..

/-- At another length, the bytes are cut short or followed by zeros. -/
@[simp]
theorem toList_resize (n : Nat) :
    (file.resize n).toList = file.toList.take n ++ List.replicate (n - file.size) 0 := by
  unfold resize
  split
  · rename_i le
    rw [toList_take, Nat.sub_eq_zero_of_le le, List.replicate_zero, List.append_nil]
  · rename_i gt
    rw [List.take_of_length_le (by rw [length_toList]; omega)]
    simp [toList, Extent.toList]

/-- **What a write leaves**: the bytes before it, with zeros up to where it
starts, then the bytes written, and then those behind them. -/
theorem toList_write (start : Nat) (bytes : List UInt8) :
    (file.write start bytes).toList
      = file.toList.take start ++ List.replicate (start - file.size) 0 ++ bytes
        ++ file.toList.drop (start + bytes.length) := by
  have gap := file.toList_resize start
  have rest := file.toList_drop (start + bytes.length)
  rw [toList] at gap rest
  simp [write, toList, gap, rest, Extent.toList]

/-- A write makes a file as long as it has to be. -/
theorem size_write (start : Nat) (bytes : List UInt8) :
    (file.write start bytes).size = max file.size (start + bytes.length) := by
  rw [← length_toList, toList_write]
  simp only [List.length_append, List.length_take, List.length_replicate, List.length_drop,
    length_toList]
  omega

end FileImage

end Tablespace
