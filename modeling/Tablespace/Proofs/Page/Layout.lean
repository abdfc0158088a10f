import Mathlib.Tactic.IntervalCases
import Tablespace.Image
import Tablespace.Page.Layout

/-!
# Slots do not touch each other

A page has a header of bits and then its slots. The number of slots is
rounded down in bits and the header is rounded up in bytes, and the two
roundings never add up to more than a page (`Layout.slotStart_add_le`). So
every slot lies within the page and behind the header, and no two slots
share a byte. They share header bytes, but not bits: putting one slot in use
or out of use leaves the bits of the others alone (`Layout.testBit_setMask`,
`Layout.testBit_clearMask`).
-/

namespace Tablespace

namespace Layout

/-- **The header and the slots fit into the page.** -/
theorem headerSize_add_le (page row : Nat) :
    headerSize (slotCount page row) + slotCount page row * row ≤ page := by
  have fit : slotCount page row * (row * 8 + 1) ≤ page * 8 := Nat.div_mul_le_self ..
  have bits : slotCount page row * (row * 8 + 1)
      = slotCount page row * row * 8 + slotCount page row := by
    rw [Nat.mul_add, Nat.mul_one, Nat.mul_assoc]
  rw [bits] at fit
  rw [headerSize]
  omega

/-- **One slot more would not fit**, with the header that it takes. -/
theorem lt_headerSize_add (page row : Nat) :
    page < headerSize (slotCount page row + 1) + (slotCount page row + 1) * row := by
  have more : page * 8 < (row * 8 + 1) * (slotCount page row + 1) :=
    Nat.lt_mul_div_succ _ (Nat.succ_pos _)
  have bits : (row * 8 + 1) * (slotCount page row + 1)
      = (slotCount page row + 1) * row * 8 + (slotCount page row + 1) := by
    rw [Nat.mul_comm, Nat.mul_add, Nat.mul_one, Nat.mul_assoc]
  rw [bits] at more
  rw [headerSize]
  omega

/-- A slot ends within the page. -/
theorem slotStart_add_le {page row slot : Nat} (h : slot < slotCount page row) :
    slotStart page row slot + row ≤ page := by
  have fit := headerSize_add_le page row
  have before : (slot + 1) * row ≤ slotCount page row * row := Nat.mul_le_mul_right row h
  rw [Nat.add_mul, Nat.one_mul] at before
  rw [slotStart]
  omega

/-- The bit of a slot lies before all slots. -/
theorem div_lt_slotStart {page row slot : Nat} (h : slot < slotCount page row) (other : Nat) :
    slot / 8 < slotStart page row other := by
  rw [slotStart, headerSize]
  exact Nat.lt_add_right _ (by omega)

/-- The bit of a slot lies within the page. -/
theorem div_lt_page {page row slot : Nat} (h : slot < slotCount page row) : slot / 8 < page := by
  have fit := headerSize_add_le page row
  rw [headerSize] at fit
  exact Nat.lt_of_lt_of_le (by omega) (Nat.le_of_add_right_le fit)

/-- Of two slots, one ends before the other starts. -/
theorem slotStart_disjoint (page row : Nat) {slot other : Nat} (h : slot ≠ other) :
    slotStart page row slot + row ≤ slotStart page row other
      ∨ slotStart page row other + row ≤ slotStart page row slot := by
  rw [slotStart, slotStart]
  rcases Nat.lt_or_gt_of_ne h with lt | gt
  · have before : (slot + 1) * row ≤ other * row := Nat.mul_le_mul_right row lt
    rw [Nat.add_mul, Nat.one_mul] at before
    omega
  · have before : (other + 1) * row ≤ slot * row := Nat.mul_le_mul_right row gt
    rw [Nat.add_mul, Nat.one_mul] at before
    omega

/-! ## Bits of the header -/

/-- The bit of a slot in a byte. -/
def testBit (b : UInt8) (slot : Nat) : Bool :=
  b.toBitVec.getLsbD (slot % 8)

theorem toBitVec_mask (slot : Nat) : (mask slot).toBitVec = BitVec.twoPow 8 (slot % 8) := by
  have small : slot % 8 < 8 := Nat.mod_lt _ (by decide)
  rw [mask, BitVec.twoPow_eq]
  interval_cases slot % 8 <;> rfl

/-- The mask of a slot picks out its bit. -/
theorem and_mask_bne_zero (b : UInt8) (slot : Nat) : (b &&& mask slot != 0) = testBit b slot := by
  have small : slot % 8 < 8 := Nat.mod_lt _ (by decide)
  have bits : (b &&& mask slot).toBitVec
      = if testBit b slot then BitVec.twoPow 8 (slot % 8) else 0#8 := by
    rw [UInt8.toBitVec_and, toBitVec_mask, BitVec.and_twoPow, testBit]
  cases h : testBit b slot with
  | false =>
    rw [h] at bits
    simpa [UInt8.eq_iff_toBitVec_eq] using bits
  | true =>
    rw [h] at bits
    refine bne_iff_ne.2 fun zero => ?_
    rw [zero] at bits
    have low := congrArg (fun x => BitVec.getLsbD x (slot % 8)) bits
    simp [small] at low

/-- Setting the bit of a slot leaves the others in the byte alone. -/
theorem testBit_setMask (b : UInt8) (slot other : Nat) :
    testBit (b ||| mask slot) other = (testBit b other || slot % 8 = other % 8) := by
  have small : slot % 8 < 8 := Nat.mod_lt _ (by decide)
  simp [testBit, toBitVec_mask, BitVec.getLsbD_twoPow, small]

/-- Two slots of one header byte have different bits. -/
theorem mask_and_mask {slot other : Nat} (h : slot % 8 ≠ other % 8) :
    mask slot &&& mask other = 0 := by
  have bit : (mask slot &&& mask other != 0) = testBit (0 ||| mask slot) other := by
    rw [and_mask_bne_zero, UInt8.zero_or]
  rw [testBit_setMask, decide_eq_false h, Bool.or_false] at bit
  have none : testBit 0 other = false := BitVec.getLsbD_zero
  rw [none] at bit
  exact bne_eq_false_iff_eq.1 bit

/-- Clearing the bit of a slot leaves the others in the byte alone. -/
theorem testBit_clearMask (b : UInt8) (slot other : Nat) :
    testBit (b &&& ~~~mask slot) other = (testBit b other && slot % 8 ≠ other % 8) := by
  have small : other % 8 < 8 := Nat.mod_lt _ (by decide)
  simp [testBit, toBitVec_mask, small, eq_comm]

end Layout

/-! ## Bytes written over an image -/

namespace Image

variable {a : Image} {start i length : Nat} {bs : List UInt8}

/-- A write changes the bytes it goes over and no others. -/
theorem getElem?_write :
    (a.write start bs)[i]?
      = if start ≤ i ∧ i < start + bs.length ∧ i < a.size then bs[i - start]? else a[i]? := by
  induction bs generalizing a start with
  | nil => rw [write, if_neg]; simp only [List.length_nil]; omega
  | cons b bs ih =>
    rw [write, ih, Array.size_setIfInBounds, List.length_cons]
    by_cases first : i = start
    · subst first
      rw [if_neg (by omega), Array.getElem?_setIfInBounds_self]
      by_cases inside : i < a.size
      · rw [if_pos inside, if_pos (by omega), Nat.sub_self]
        rfl
      · rw [if_neg inside, if_neg (by omega), Array.getElem?_eq_none (Nat.not_lt.1 inside)]
    · rw [Array.getElem?_setIfInBounds_ne (Ne.symm first)]
      by_cases later : start + 1 ≤ i ∧ i < start + 1 + bs.length ∧ i < a.size
      · rw [if_pos later, if_pos (by omega), show i - start = i - (start + 1) + 1 by omega]
        rfl
      · rw [if_neg later, if_neg (by omega)]

/-- A byte of a stretch. -/
theorem getElem?_slice (a : Image) (start length i : Nat) :
    (a.slice start length)[i]? = if i < length then a[start + i]? else none := by
  rw [slice, Array.getElem?_toList, Array.getElem?_extract]
  by_cases inside : i < length
  · rw [if_pos inside]
    by_cases there : start + i < a.size
    · rw [if_pos (by omega)]
    · rw [if_neg (by omega), Array.getElem?_eq_none (by omega)]
  · rw [if_neg inside, if_neg (by omega)]

/-- A stretch within the image has its full length. -/
theorem length_slice (h : start + length ≤ a.size) : (a.slice start length).length = length := by
  rw [slice, Array.length_toList, Array.size_extract]
  omega

/-- What was written within the image stands there. -/
theorem slice_write_self (h : start + bs.length ≤ a.size) :
    (a.write start bs).slice start bs.length = bs := by
  refine List.ext_getElem? fun i => ?_
  rw [getElem?_slice, getElem?_write]
  by_cases inside : i < bs.length
  · rw [if_pos inside, if_pos (by omega), Nat.add_sub_cancel_left]
  · rw [if_neg inside, List.getElem?_eq_none (by omega)]

/-- A stretch that was not written over stands as before. -/
theorem slice_write_of_disjoint (h : i + length ≤ start ∨ start + bs.length ≤ i) :
    (a.write start bs).slice i length = a.slice i length := by
  refine List.ext_getElem? fun j => ?_
  rw [getElem?_slice, getElem?_slice, getElem?_write]
  by_cases inside : j < length
  · rw [if_pos inside, if_neg (by omega), if_pos inside]
  · rw [if_neg inside, if_neg inside]

/-- A byte before a write stands as before. -/
theorem byte_write_of_lt (h : i < start) : (a.write start bs).byte i = a.byte i := by
  rw [byte, byte, Array.getD_eq_getD_getElem?, Array.getD_eq_getD_getElem?, getElem?_write,
    if_neg (by omega)]

/-- A stretch behind a byte stands when the byte changes. -/
theorem slice_modify_of_lt {f : UInt8 → UInt8} {j : Nat} (h : j < start) :
    Image.slice (a.modify j f) start length = a.slice start length := by
  refine List.ext_getElem? fun k => ?_
  have behind : j ≠ start + k := by omega
  rw [getElem?_slice, getElem?_slice, Array.getElem?_modify, if_neg behind]

/-- A byte that was changed. -/
theorem byte_modify (f : UInt8 → UInt8) {j : Nat} (h : j < a.size) :
    Image.byte (a.modify j f) i = if j = i then f (a.byte i) else a.byte i := by
  rw [byte, byte, Array.getD_eq_getD_getElem?, Array.getD_eq_getD_getElem?, Array.getElem?_modify]
  by_cases same : j = i
  · subst same
    rw [if_pos rfl, if_pos rfl, Array.getElem?_eq_getElem h]
    rfl
  · rw [if_neg same, if_neg same]

end Image

end Tablespace
