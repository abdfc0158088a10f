import Tablespace.Catalog
import Tablespace.Proofs.Page.Rows

/-!
# A heap file is an array of pages

A heap file is a sequence of pages. Reading gives the page at an index below
their number (`HeapFile.readPage_eq_ok_iff`), and writing changes the page at
its index and no other (`HeapFile.readPage_writeAt`). The last page may be cut
short: it cannot be read, but it is counted. A file without such a page is an
array of pages (`HeapFile.Whole`).

The number of pages (`HeapFile.count`) is handed around as a 32-bit word, and
so is the number of the page that is appended. As long as the file has fewer
than `2 ^ 32` pages this word is the number of pages, and the page appended is
a new one. A longer file is another matter: the word has wrapped, and the page
"appended" is one that the file has (`HeapFile.Overrun`). What was stored in
that page is lost, and it is the only page of the file of which this is true.

A page is appended without leaving a gap only to an array of pages, or where it
is written over another one (`HeapFile.Grown`).
-/

namespace Tablespace

namespace FileImage

/-- **A byte after a write.** -/
theorem getElem?_write (file : FileImage) (start : Nat) (bytes : List UInt8) (i : Nat) :
    (file.write start bytes).toList[i]?
      = if start ≤ i ∧ i < start + bytes.length then bytes[i - start]?
        else if i < file.size then file.toList[i]?
        else if i < start then some 0 else none := by
  rw [toList_write, List.append_assoc, List.append_assoc, List.getElem?_append,
    List.getElem?_append, List.getElem?_append]
  simp only [List.length_take, List.length_replicate, length_toList, List.getElem?_take,
    List.getElem?_replicate, List.getElem?_drop]
  have behind : i - min start file.size - (start - file.size) = i - start := by omega
  have rest : start + bytes.length + (i - start - bytes.length) = i ∨ i < start + bytes.length := by
    omega
  have none : file.size ≤ i → file.toList[i]? = none := fun h =>
    List.getElem?_eq_none (by rw [length_toList]; exact h)
  rw [behind]
  grind

end FileImage

namespace PageFile

variable {file : FileImage} {size : Nat} {n m : UInt32} {bytes : List UInt8}

/-- Pages that are all there in full are as many when they are rounded up. -/
theorem mul_roundUp (pos : 0 < size) (pages : Nat) : (size * pages + size - 1) / size = pages := by
  rw [Nat.add_sub_assoc pos, Nat.mul_add_div pos, Nat.div_eq_of_lt (Nat.sub_lt pos Nat.one_pos),
    Nat.add_zero]

/-- **Whether a file reaches over all of a page.** -/
def Covers (file : FileImage) (size : Nat) (page : UInt32) : Prop :=
  page.toNat * size + size ≤ file.size

/-- The bytes of a page that the file reaches over. -/
theorem read?_of_covers (pos : 0 < size) (h : Covers file size n) :
    read? file size n = some ((file.toList.drop (n.toNat * size)).take size).toArray := by
  unfold read? readAt?
  rw [if_neg (Nat.ne_of_gt pos), if_pos (by exact h)]
  refine congrArg some (Array.toList_inj.1 ?_)
  rw [FileImage.toList_toImage, FileImage.toList_take, FileImage.toList_drop]

/-- A page that the file does not reach over cannot be read. -/
theorem read?_of_not_covers (pos : 0 < size) (h : ¬Covers file size n) :
    read? file size n = none := by
  unfold read? readAt?
  rw [if_neg (Nat.ne_of_gt pos), if_neg (by exact h)]

/-- What is read is as long as a page. -/
theorem size_of_read? (pos : 0 < size) {image : Image} (h : read? file size n = some image) :
    Covers file size n ∧ image.size = size := by
  by_cases covers : Covers file size n
  · rw [read?_of_covers pos covers] at h
    have bound : n.toNat * size + size ≤ file.size := covers
    refine ⟨covers, ?_⟩
    rw [← Option.some.inj h, List.size_toArray, List.length_take, List.length_drop,
      FileImage.length_toList]
    omega
  · rw [read?_of_not_covers pos covers] at h
    cases h

/-- A page of some bytes is written over the file. -/
theorem write_of_pos (pos : 0 < size) (length : bytes.length = size) :
    write file size n bytes = file.write (n.toNat * size) bytes := by
  have full : bytes.isEmpty = false := by
    rw [List.isEmpty_eq_false_iff, ← List.length_pos_iff, length]
    exact pos
  rw [write, writeAt, full, if_neg Bool.false_ne_true]

theorem size_write (pos : 0 < size) (length : bytes.length = size) :
    (write file size n bytes).size = max file.size (n.toNat * size + size) := by
  rw [write_of_pos pos length, FileImage.size_write, length]

/-- Writing a page keeps the others where they are. -/
theorem mul_add_le_of_ne (h : n ≠ m) :
    n.toNat * size + size ≤ m.toNat * size ∨ m.toNat * size + size ≤ n.toNat * size := by
  have ne : n.toNat ≠ m.toNat := fun eq => h (UInt32.toNat_inj.1 eq)
  rcases Nat.lt_or_gt_of_ne ne with lt | gt
  · have before : (n.toNat + 1) * size ≤ m.toNat * size := Nat.mul_le_mul_right size lt
    rw [Nat.add_mul, Nat.one_mul] at before
    exact .inl before
  · have before : (m.toNat + 1) * size ≤ n.toNat * size := Nat.mul_le_mul_right size gt
    rw [Nat.add_mul, Nat.one_mul] at before
    exact .inr before

/-- **A page after a write**: the page written, or as it was. -/
theorem read?_write (pos : 0 < size) (length : bytes.length = size)
    (h : m = n ∨ Covers file size m) :
    read? (write file size n bytes) size m
      = if m = n then some bytes.toArray else read? file size m := by
  have grown : (write file size n bytes).size = max file.size (n.toNat * size + size) :=
    size_write pos length
  by_cases same : m = n
  · subst same
    have covers : Covers (write file size m bytes) size m := by
      rw [Covers, grown]
      exact Nat.le_max_right ..
    rw [if_pos rfl, read?_of_covers pos covers]
    refine congrArg (fun l : List UInt8 => some l.toArray) (List.ext_getElem? fun i => ?_)
    rw [List.getElem?_take, List.getElem?_drop, write_of_pos pos length, FileImage.getElem?_write,
      length]
    by_cases inside : i < size
    · rw [if_pos inside, if_pos (by omega), Nat.add_sub_cancel_left]
    · rw [if_neg inside, List.getElem?_eq_none (by omega)]
  · -- another page ends before the page written begins, or begins after its end
    have old : m.toNat * size + size ≤ file.size := h.resolve_left same
    have covers : Covers (write file size n bytes) size m := by
      rw [Covers, grown]
      exact Nat.le_trans old (Nat.le_max_left ..)
    have apart : m.toNat * size + size ≤ n.toNat * size ∨ n.toNat * size + size ≤ m.toNat * size :=
      mul_add_le_of_ne same
    rw [if_neg same, read?_of_covers pos covers, read?_of_covers pos old]
    refine congrArg (fun l : List UInt8 => some l.toArray) (List.ext_getElem? fun i => ?_)
    rw [List.getElem?_take, List.getElem?_drop, List.getElem?_take, List.getElem?_drop,
      write_of_pos pos length, FileImage.getElem?_write, length]
    by_cases inside : i < size
    · rw [if_pos inside, if_pos inside, if_neg (by omega), if_pos (by omega)]
    · rw [if_neg inside, if_neg inside]

end PageFile

namespace Volume

/-- **A file after a file was written**: the one written, or as it was. -/
theorem content_put (v : Volume) (path q : Path) (image : FileImage) :
    (v.put path image).content q = if q = path then image else v.content q := by
  unfold put content
  split
  · rename_i there
    -- replacing the file in its place does not change which entry is found
    have go (files : List (Path × FileImage)) :
        (files.map fun f => if f.1 = path then (path, image) else f).find? (·.1 = q)
          = if q = path then (files.find? (·.1 = q)).map fun _ => (path, image)
            else files.find? (·.1 = q) := by
      induction files with
      | nil => simp
      | cons f files ih =>
        rw [List.map_cons, List.find?_cons, ih, List.find?_cons]
        grind
    rw [go]
    split
    · rename_i eq
      subst eq
      obtain ⟨f, mem, name⟩ := List.any_eq_true.1 there
      cases found : v.files.find? (·.1 = q) with
      | none => exact absurd name (List.find?_eq_none.1 found f mem)
      | some g => rfl
    · rfl
  · rename_i missing
    rw [List.find?_append]
    split
    · rename_i eq
      subst eq
      have none : v.files.find? (·.1 = q) = none := by
        rw [List.find?_eq_none]
        intro f mem name
        exact missing (List.any_eq_true.2 ⟨f, mem, name⟩)
      rw [none]
      simp
    · rename_i ne
      cases v.files.find? (·.1 = q) with
      | none => simp [Ne.symm ne]
      | some g => rfl

end Volume

namespace HeapFile

variable {f g : HeapFile} {v w x : Volume} {p : PageId} {n : UInt32} {bytes : List UInt8}

/-- A page has room for a row, so it has bytes. -/
theorem pageSize_pos (f : HeapFile) : 0 < f.pageSize := by
  refine Nat.pos_of_ne_zero fun zero => ?_
  have slots := f.slots_pos
  rw [zero, Layout.slotCount, Nat.zero_mul, Nat.zero_div] at slots
  exact absurd slots (Nat.lt_irrefl 0)

/-- **The number of pages that a file has in full**, however many there are. -/
def pages (f : HeapFile) (v : Volume) : Nat :=
  (v.content f.path).size / f.pageSize

/-- **The number of pages that are counted**, the last of which may be cut
short. -/
def count (f : HeapFile) (v : Volume) : Nat :=
  ((v.content f.path).size + f.pageSize - 1) / f.pageSize

/-- **A file is an array of pages**: its last page is not cut short. -/
def Whole (f : HeapFile) (v : Volume) : Prop :=
  f.pageSize ∣ (v.content f.path).size

/-- **A page that the next page to be appended is written over.** -/
def Overrun (f : HeapFile) (v : Volume) (n : UInt32) : Prop :=
  n.toNat < f.pages v ∧ f.pageCount v = n

/-- The page of the file with given bytes, which is clean. -/
def page (f : HeapFile) (n : UInt32) (image : Image) (h : image.size = f.pageSize) : Page :=
  ⟨⟨f.table, n⟩, f.schema, image, none, h ▸ f.slots_pos, h ▸ f.slots_le⟩

/-- The page that is appended to the file. -/
def emptyPage (f : HeapFile) (n : UInt32) : Page :=
  f.page n (List.replicate f.pageSize (0 : UInt8)).toArray (by simp)

theorem covers_iff : PageFile.Covers (v.content f.path) f.pageSize n ↔ n.toNat < f.pages v := by
  rw [PageFile.Covers, pages, ← Nat.succ_le_iff, Nat.le_div_iff_mul_le f.pageSize_pos,
    Nat.succ_mul]

/-- All pages of an array of pages are there in full. -/
theorem Whole.count_eq (whole : f.Whole v) : f.count v = f.pages v := by
  obtain ⟨k, size⟩ := whole
  have pos := f.pageSize_pos
  rw [count, pages, size, PageFile.mul_roundUp pos, Nat.mul_div_cancel_left _ pos]

/-- A page that is cut short is counted. -/
theorem count_of_not_whole (cut : ¬f.Whole v) : f.count v = f.pages v + 1 := by
  have pos := f.pageSize_pos
  have rest : (v.content f.path).size % f.pageSize ≠ 0 := mt Nat.dvd_of_mod_eq_zero cut
  have less := Nat.mod_lt (v.content f.path).size pos
  have size : (v.content f.path).size + f.pageSize - 1 = f.pageSize * (f.pages v + 1)
      + ((v.content f.path).size % f.pageSize - 1) := by
    have parts := Nat.div_add_mod (v.content f.path).size f.pageSize
    rw [pages, Nat.mul_add, Nat.mul_one]
    omega
  rw [count, size, Nat.mul_add_div pos, Nat.div_eq_of_lt (by omega), Nat.add_zero]

/-- No more than one page is counted that is not there in full. -/
theorem pages_le_count : f.pages v ≤ f.count v ∧ f.count v ≤ f.pages v + 1 := by
  by_cases whole : f.Whole v
  · rw [whole.count_eq]
    omega
  · rw [count_of_not_whole whole]
    omega

theorem toNat_pageCount : (f.pageCount v).toNat = f.count v % 4294967296 :=
  UInt32.toNat_ofNat'

/-- **Only a file of `2 ^ 32` pages or more is overrun.** -/
theorem overrun_iff :
    f.Overrun v n ↔ 4294967296 ≤ f.count v ∧ n.toNat = f.count v % 4294967296 := by
  have bounds : f.pages v ≤ f.count v ∧ f.count v ≤ f.pages v + 1 := pages_le_count
  rw [Overrun, ← UInt32.toNat_inj, toNat_pageCount]
  omega

/-! ## Files that grow -/

section Size

variable (same : (w.content f.path).size = (v.content f.path).size)

include same

theorem pages_congr : f.pages w = f.pages v := by
  rw [pages, pages, same]

theorem count_congr : f.count w = f.count v := by
  rw [count, count, same]

theorem pageCount_congr : f.pageCount w = f.pageCount v := by
  rw [pageCount, pageCount, same]

theorem whole_congr : f.Whole w ↔ f.Whole v := by
  rw [Whole, Whole, same]

end Size

/-- **How a file grows**: it stays as long as it is, or it is an array of pages
before and after, of no more pages than the page count can tell. -/
def Grown (f : HeapFile) (v w : Volume) : Prop :=
  (w.content f.path).size = (v.content f.path).size
    ∨ f.Whole v ∧ f.Whole w ∧ f.pages v ≤ f.pages w ∧ f.pages w ≤ 4294967296

namespace Grown

theorem refl (f : HeapFile) (v : Volume) : f.Grown v v :=
  .inl rfl

theorem trans (first : f.Grown v w) (second : f.Grown w x) : f.Grown v x := by
  rcases first with same | ⟨before, between, less, small⟩
  · rcases second with same' | ⟨before', after, less', small'⟩
    · exact .inl (same'.trans same)
    · exact .inr ⟨(whole_congr same).1 before', after, pages_congr same ▸ less', small'⟩
  · rcases second with same' | ⟨-, after, less', small'⟩
    · exact .inr ⟨before, (whole_congr same').2 between, (pages_congr same').symm ▸ less,
        (pages_congr same').symm ▸ small⟩
    · exact .inr ⟨before, after, Nat.le_trans less less', small'⟩

variable (grown : f.Grown v w)

include grown

/-- Files do not become shorter. -/
theorem pages_le : f.pages v ≤ f.pages w := by
  rcases grown with same | ⟨-, -, less, -⟩
  · exact Nat.le_of_eq (pages_congr same).symm
  · exact less

/-- The pages that are counted become more, and no more than the page count can
tell. -/
theorem count_le : f.count v ≤ f.count w
    ∧ (f.count w = f.count v ∨ f.count w ≤ 4294967296) := by
  rcases grown with same | ⟨before, after, less, small⟩
  · rw [count_congr same]
    exact ⟨Nat.le_refl _, .inl rfl⟩
  · rw [before.count_eq, after.count_eq]
    exact ⟨less, .inr small⟩

/-- An array of pages remains one. -/
theorem whole (before : f.Whole v) : f.Whole w := by
  rcases grown with same | ⟨-, after, -⟩
  · exact (whole_congr same).2 before
  · exact after

/-- A page that was overrun stays so. -/
theorem overrun (hit : f.Overrun v n) : f.Overrun w n := by
  have grown := grown.count_le
  rw [overrun_iff] at hit ⊢
  omega

end Grown

/-! ## Reading -/

/-- **What is read** is a page that the file reaches over. -/
theorem readPage_eq_ok_iff {q : Page} :
    f.readPage v p = .ok q ↔ p.table = f.table ∧ ∃ image h,
      PageFile.read? (v.content f.path) f.pageSize p.number = some image
        ∧ q = f.page p.number image h := by
  unfold readPage checkTable
  by_cases table : p.table = f.table
  · rw [if_pos table]
    cases found : PageFile.read? (v.content f.path) f.pageSize p.number with
    | none => simp [bind, Except.bind]
    | some image =>
      have size := (PageFile.size_of_read? f.pageSize_pos found).2
      have name : p = ⟨f.table, p.number⟩ := by rw [← table]
      have read : Page.ofImage p f.schema image = .ok (f.page p.number image size) := by
        unfold Page.ofImage
        rw [dif_neg (by rw [size]; exact Nat.ne_of_gt f.slots_pos),
          dif_pos (by rw [size]; exact f.slots_le)]
        simp only [page, ← name]
      simp only [bind, Except.bind, read, Except.ok.injEq, Option.some.injEq]
      constructor
      · rintro rfl
        exact ⟨table, image, size, rfl, rfl⟩
      · rintro ⟨-, _, _, rfl, rfl⟩
        rfl
  · simp [table, bind, Except.bind]

/-- A page can be read exactly if it is one of the table's and the file
reaches over it. -/
theorem isOk_readPage_iff :
    (∃ q, f.readPage v p = .ok q) ↔ p.table = f.table ∧ p.number.toNat < f.pages v := by
  simp only [readPage_eq_ok_iff]
  constructor
  · rintro ⟨_, table, image, _, found, -⟩
    exact ⟨table, covers_iff.1 (PageFile.size_of_read? f.pageSize_pos found).1⟩
  · rintro ⟨table, there⟩
    have found := PageFile.read?_of_covers f.pageSize_pos (covers_iff.2 there)
    exact ⟨_, table, _, (PageFile.size_of_read? f.pageSize_pos found).2, found, rfl⟩

/-- **What is wrong with a page that cannot be read**: it is one of another
table, or it is not there. -/
theorem readPage_error {cause : Fault} (h : f.readPage v p = .error cause) :
    cause = .tableMismatch f.table p.table ∨ ∃ flaw, cause = .corruptPage p flaw := by
  unfold readPage checkTable at h
  split at h
  · cases found : PageFile.read? (v.content f.path) f.pageSize p.number with
    | none =>
      rw [found] at h
      exact .inr ⟨_, (Except.error.inj h).symm⟩
    | some image =>
      rw [found] at h
      simp only [bind, Except.bind, Page.ofImage] at h
      split at h
      · exact .inr ⟨_, (Except.error.inj h).symm⟩
      · split at h
        · cases h
        · exact .inr ⟨_, (Except.error.inj h).symm⟩
  · exact .inl (Except.error.inj h).symm

/-- What is wrong with a page depends on the number of pages, not on their
bytes. -/
theorem readPage_error_congr (pages : f.pages w = f.pages v) {cause : Fault}
    (h : f.readPage v p = .error cause) : f.readPage w p = .error cause := by
  unfold readPage at h ⊢
  unfold checkTable at h ⊢
  split at h
  · rename_i table
    rw [if_pos table]
    have missing : PageFile.read? (v.content f.path) f.pageSize p.number = none := by
      by_cases there : PageFile.Covers (v.content f.path) f.pageSize p.number
      · obtain ⟨q, read⟩ := isOk_readPage_iff.2 ⟨table, covers_iff.1 there⟩
        unfold readPage checkTable at read
        rw [if_pos table, h] at read
        cases read
      · exact PageFile.read?_of_not_covers f.pageSize_pos there
    have still : PageFile.read? (w.content f.path) f.pageSize p.number = none := by
      refine PageFile.read?_of_not_covers f.pageSize_pos fun covers => ?_
      rw [covers_iff, pages] at covers
      rw [PageFile.read?_of_covers f.pageSize_pos (covers_iff.2 covers)] at missing
      cases missing
    rw [missing] at h
    rw [still]
    exact h
  · rename_i table
    rw [if_neg table]
    exact h

/-! ## Writing -/

/-- The volume with a page of the file written. -/
def writeAt (f : HeapFile) (v : Volume) (n : UInt32) (bytes : List UInt8) : Volume :=
  v.put f.path (PageFile.write (v.content f.path) f.pageSize n bytes)

theorem size_writeAt (length : bytes.length = f.pageSize) :
    ((f.writeAt v n bytes).content f.path).size
      = max (v.content f.path).size ((n.toNat + 1) * f.pageSize) := by
  rw [writeAt, Volume.content_put, if_pos rfl, PageFile.size_write f.pageSize_pos length,
    ← Nat.succ_mul]

theorem pages_writeAt (length : bytes.length = f.pageSize) :
    f.pages (f.writeAt v n bytes) = max (f.pages v) (n.toNat + 1) := by
  rw [pages, size_writeAt length]
  rcases Nat.le_total (v.content f.path).size ((n.toNat + 1) * f.pageSize) with short | long
  · rw [Nat.max_eq_right short, Nat.mul_div_cancel _ f.pageSize_pos, Nat.max_eq_right]
    exact Nat.div_le_of_le_mul (by rw [Nat.mul_comm]; exact short)
  · rw [Nat.max_eq_left long, Nat.max_eq_left]
    · rfl
    · exact (Nat.le_div_iff_mul_le f.pageSize_pos).2 long

theorem Whole.writeAt (whole : f.Whole v) (length : bytes.length = f.pageSize) :
    f.Whole (f.writeAt v n bytes) := by
  rw [Whole, size_writeAt length]
  rcases Nat.le_total (v.content f.path).size ((n.toNat + 1) * f.pageSize) with short | long
  · rw [Nat.max_eq_right short]
    exact Nat.dvd_mul_left ..
  · rw [Nat.max_eq_left long]
    exact whole

/-- A file stays as long as it is if a page of it is written over. -/
theorem size_writeAt_of_lt (length : bytes.length = f.pageSize) (inside : n.toNat < f.pages v) :
    ((f.writeAt v n bytes).content f.path).size = (v.content f.path).size := by
  rw [size_writeAt length, Nat.max_eq_left]
  exact (Nat.le_div_iff_mul_le f.pageSize_pos).1 inside

/-- A file that lies elsewhere is not written. -/
theorem content_writeAt_of_ne (other : g.path ≠ f.path) :
    (f.writeAt v n bytes).content g.path = v.content g.path := by
  rw [writeAt, Volume.content_put, if_neg other]

/-- The bytes of a page after a page was written. The page written must not
leave a gap. -/
theorem read?_writeAt (length : bytes.length = f.pageSize) (next : n.toNat ≤ f.pages v)
    (m : UInt32) :
    PageFile.read? ((f.writeAt v n bytes).content f.path) f.pageSize m
      = if m = n then some bytes.toArray
        else PageFile.read? (v.content f.path) f.pageSize m := by
  by_cases old : m = n ∨ m.toNat < f.pages v
  · rw [writeAt, Volume.content_put, if_pos rfl,
      PageFile.read?_write f.pageSize_pos length (old.imp_right covers_iff.2)]
  · obtain ⟨other, behind⟩ := not_or.1 old
    have ne : m.toNat ≠ n.toNat := fun eq => other (UInt32.toNat_inj.1 eq)
    have still : ¬m.toNat < f.pages (f.writeAt v n bytes) := by
      rw [pages_writeAt length]
      omega
    rw [if_neg other, PageFile.read?_of_not_covers f.pageSize_pos (mt covers_iff.1 still),
      PageFile.read?_of_not_covers f.pageSize_pos (mt covers_iff.1 behind)]

/-- What is read depends on the bytes of the page alone. -/
theorem readPage_congr (read : PageFile.read? (w.content f.path) f.pageSize p.number
    = PageFile.read? (v.content f.path) f.pageSize p.number) : f.readPage w p = f.readPage v p := by
  rw [readPage, readPage, read]

/-- **A page after a page was written**: the page written, or as it was. -/
theorem readPage_writeAt (length : bytes.length = f.pageSize) (next : n.toNat ≤ f.pages v) :
    f.readPage (f.writeAt v n bytes) p
      = if p = ⟨f.table, n⟩ then .ok (f.page n bytes.toArray (by simpa using length))
        else f.readPage v p := by
  split
  · rename_i written
    subst written
    refine readPage_eq_ok_iff.2 ⟨rfl, bytes.toArray, by simpa using length, ?_, rfl⟩
    rw [read?_writeAt length next, if_pos rfl]
  · rename_i other
    by_cases table : p.table = f.table
    · have ne : p.number ≠ n := fun eq => other (by rw [← table, ← eq])
      refine readPage_congr ?_
      rw [read?_writeAt length next, if_neg ne]
    · rw [readPage, readPage, checkTable, if_neg table]
      rfl

/-! ## Appending -/

theorem appendPage_eq (f : HeapFile) (v : Volume) :
    f.appendPage v = (f.pageCount v,
      f.writeAt v (f.pageCount v) (List.replicate f.pageSize 0)) :=
  rfl

/-- The page appended to an array of pages leaves no gap. -/
theorem Whole.toNat_pageCount_le (whole : f.Whole v) : (f.pageCount v).toNat ≤ f.pages v := by
  rw [toNat_pageCount, whole.count_eq]
  exact Nat.mod_le ..

/-- **Appending adds a page to an array of pages**, or writes one over. -/
theorem grown_append (next : (f.pageCount v).toNat ≤ f.pages v) :
    f.Grown v (f.appendPage v).2 := by
  rw [appendPage_eq]
  rcases Nat.lt_or_eq_of_le next with inside | behind
  · exact .inl (size_writeAt_of_lt List.length_replicate inside)
  · have bound : (f.pageCount v).toNat < 4294967296 := UInt32.toNat_lt _
    have number : (f.pageCount v).toNat = f.count v % 4294967296 := toNat_pageCount
    -- behind a page that is cut short there would be a gap
    have whole : f.Whole v := by
      by_contra cut
      have count : f.count v = f.pages v + 1 := count_of_not_whole cut
      omega
    refine .inr ⟨whole, whole.writeAt List.length_replicate, ?_⟩
    rw [pages_writeAt List.length_replicate]
    omega

/-- **What is read after a page was appended** and left no gap: an empty page in
the place of the page count, and what was read before elsewhere. -/
theorem readPage_appendPage (next : (f.pageCount v).toNat ≤ f.pages v) (p : PageId) :
    f.readPage (f.appendPage v).2 p
      = if p = ⟨f.table, f.pageCount v⟩ then .ok (f.emptyPage (f.pageCount v))
        else f.readPage v p :=
  readPage_writeAt List.length_replicate next

/-- The page appended is a new one, unless it is overrun. -/
theorem pages_le_of_not_overrun (h : ¬f.Overrun v (f.pageCount v)) :
    f.pages v ≤ (f.pageCount v).toNat :=
  Nat.not_lt.1 fun lt => h ⟨lt, rfl⟩

/-- An empty page holds no rows. -/
@[simp]
theorem rowAt_emptyPage (f : HeapFile) (n : UInt32) (slot : Nat) :
    (f.emptyPage n).rowAt slot = none := by
  have byte : ∀ i, Image.byte (List.replicate f.pageSize (0 : UInt8)).toArray i = 0 := by
    intro i
    rw [Image.byte, Array.getD_eq_getD_getElem?, List.getElem?_toArray, List.getElem?_replicate]
    split <;> rfl
  rw [Page.rowAt_eq, Page.isUsed, emptyPage, page, byte, UInt8.zero_and]
  simp

/-- An empty page has a free slot. -/
theorem hasFreeSlot_emptyPage (f : HeapFile) (n : UInt32) :
    (f.emptyPage n).hasFreeSlot = true := by
  have unused : (f.emptyPage n).isUsed 0 = false := by
    rw [← Page.isSome_rowAt, rowAt_emptyPage]
    rfl
  rw [Page.hasFreeSlot, Page.firstFree?, List.find?_isSome]
  exact ⟨0, List.mem_range.2 (f.emptyPage n).slots_pos, by rw [unused]; rfl⟩

end HeapFile

end Tablespace
