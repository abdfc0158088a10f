import Tablespace.Proofs.Heap.File

/-!
# Pages are appended behind those that were written

Pages can be written in any order and with any gaps. A file is then as long as the
highest of their numbers says (`Disk.Reached.spans`), so counting pages counts up to
that number, and whatever page is appended lies behind all that were written.

All this is about numbers, and there are only words for them. The count is a word of 32
bits, which agrees with the number of pages up to the last page that can be named. When
that page was written, there are `2 ^ 32` pages. Then none are counted, and the page that
is "appended" is written over page zero.

Where a page begins is a word of 64 bits. It wraps for some pages of more than `2 ^ 32`
bytes, and such a page is written where another one should be. A file in which that never
happened (`Disk.Unwrapped`) spans its pages. In any other, the page that wrapped is not
below the count.
-/

namespace Tablespace

namespace PageFile

/-- **How many pages a file spans** once the given ones were written. -/
def span (pages : List UInt32) : Nat :=
  pages.foldr (fun page n => max (page.toNat + 1) n) 0

theorem span_cons (page : UInt32) (pages : List UInt32) :
    span (page :: pages) = max (page.toNat + 1) (span pages) :=
  rfl

/-- What is spanned lies at or before a page that was written. -/
theorem lt_span_iff {pages : List UInt32} {i : Nat} :
    i < span pages ↔ ∃ page ∈ pages, i ≤ page.toNat := by
  induction pages with
  | nil => exact ⟨nofun, nofun⟩
  | cons page pages ih =>
    rw [span_cons, lt_max_iff, ih, Nat.lt_succ_iff]
    simp only [List.mem_cons, exists_eq_or_imp]

/-- There are no more pages than can be named. -/
theorem span_le (pages : List UInt32) : span pages ≤ 4294967296 := by
  refine Nat.le_of_not_lt fun more => ?_
  obtain ⟨page, -, behind⟩ := lt_span_iff.1 more
  exact absurd page.toNat_lt (Nat.not_lt.2 behind)

/-- All of them are spanned exactly if the last one was written. -/
theorem span_eq_iff {pages : List UInt32} :
    span pages = 4294967296 ↔ 4294967295 ∈ pages := by
  have all := span_le pages
  constructor
  · intro full
    have less : 4294967295 < span pages := by omega
    obtain ⟨page, written, last⟩ := lt_span_iff.1 less
    have same : page = 4294967295 :=
      UInt32.toNat_inj.1 (Nat.le_antisymm (Nat.le_of_lt_succ page.toNat_lt) last)
    exact same ▸ written
  · intro written
    have less : 4294967295 < span pages := lt_span_iff.2 ⟨_, written, Nat.le_refl _⟩
    omega

/-- Pages that are all there in full are counted by their number, as a word. -/
theorem pageCount_mul {size : Nat} (pos : 0 < size) (pages : Nat) :
    pageCount size (pages * size) = UInt32.ofNat pages := by
  rw [pageCount, Nat.mul_comm, mul_roundUp pos]

variable {file : FileImage} {size : Nat} {page : UInt32} {bytes : List UInt8}

/-- A file that is written spans the page that was written. -/
theorem size_write_span {pages : List UInt32} (length : bytes.length = size)
    (spans : file.size = span pages * size) :
    (write file size page bytes).size = span (page :: pages) * size := by
  rcases Nat.eq_zero_or_pos size with rfl | pos
  · rw [write, writeAt, List.length_eq_zero_iff.1 length]
    exact spans
  · rw [size_write pos length, spans, span_cons, ← Nat.mul_max_mul_right, Nat.succ_mul, Nat.max_comm]

/-- A file that is written reaches no further than it did, or to the end of what was
written. -/
theorem size_writeAt_le (file : FileImage) (start : Nat) (bytes : List UInt8) :
    (writeAt file start bytes).size ≤ max file.size (start + bytes.length) := by
  unfold writeAt
  split
  · exact Nat.le_max_left ..
  · exact Nat.le_of_eq (FileImage.size_write ..)

/-- **Where a page begins** is the product, unless that wraps. -/
theorem toNat_offset (size : Nat) (page : UInt32) :
    (offset size page).toNat = page.toNat * size % 2 ^ 64 := by
  rw [offset, UInt64.toNat_mul, UInt32.toNat_toUInt64, UInt64.toNat_ofNat']
  exact Nat.mul_mod_mod ..

/-- A page that begins where page zero does. -/
example : offset 8589934592 2147483648 = 0 := by decide

/-- **A page that begins where the file ends** leaves all bytes as they are. -/
theorem toList_write_end (behind : page.toNat * size = file.size) :
    (write file size page bytes).toList = file.toList ++ bytes := by
  unfold write writeAt
  split
  · rename_i empty
    rw [List.isEmpty_iff.1 empty, List.append_nil]
  · have before : file.toList.take file.size = file.toList :=
      List.take_of_length_le (Nat.le_of_eq file.length_toList)
    have after : file.toList.drop (file.size + bytes.length) = [] :=
      List.drop_eq_nil_of_le (by rw [FileImage.length_toList]; exact Nat.le_add_right ..)
    rw [behind, FileImage.toList_write, before, after, Nat.sub_self, List.replicate_zero,
      List.append_nil, List.append_nil]

/-- **Page zero is written** over the first bytes of the file. -/
theorem toList_write_zero :
    (write file size 0 bytes).toList = bytes ++ file.toList.drop bytes.length := by
  unfold write writeAt
  split
  · rename_i empty
    rw [List.isEmpty_iff.1 empty]
    rfl
  · rw [UInt32.toNat_zero, Nat.zero_mul, FileImage.toList_write, Nat.zero_add, Nat.zero_sub]
    rfl

end PageFile

namespace Disk

open PageFile (span)

variable {size : Nat} {d : Disk} {pages : List UInt32}

/-- **The disks that an empty file comes to** when pages are written and appended, with
the pages that were written, the latest first. -/
inductive Reached (size : Nat) : Disk → List UInt32 → Prop
  | opened : Reached size (ofFile .empty size) []
  | written {d d' : Disk} {pages : List UInt32} {page : UInt32} {bytes : List UInt8} :
    Reached size d pages → d.write page bytes = .ok d' → Reached size d' (page :: pages)
  | appended {d d' : Disk} {pages : List UInt32} {page : UInt32} {bytes : List UInt8} :
    Reached size d pages → d.allocate bytes = .ok (page, d') → Reached size d' (page :: pages)

/-! ## Seeking a page -/

/-- **Pages that begin at their products**, none of which wraps. -/
def Unwrapped (size : Nat) (pages : List UInt32) : Prop :=
  ∀ page ∈ pages, page.toNat * size < 2 ^ 64

theorem unwrapped_cons {page : UInt32} :
    Unwrapped size (page :: pages) ↔ page.toNat * size < 2 ^ 64 ∧ Unwrapped size pages :=
  List.forall_mem_cons

/-- Pages that are not too large do not wrap. -/
theorem unwrapped_of_le (small : size ≤ 2 ^ 32) (pages : List UInt32) : Unwrapped size pages :=
  fun page _ => Nat.lt_of_le_of_lt (Nat.mul_le_mul_left _ small)
    (Nat.mul_lt_mul_of_pos_right page.toNat_lt (Nat.two_pow_pos 32))

section

variable {page : UInt32} {start : Nat}

theorem seek_eq_ok_iff : d.seek page = .ok start
    ↔ page.toNat * d.pageSize % 2 ^ 64 = start ∧ start < 2 ^ 63 := by
  rw [seek, PageFile.toNat_offset]
  split
  · rename_i near
    rw [Except.ok.injEq]
    exact ⟨fun eq => ⟨eq, eq ▸ near⟩, And.left⟩
  · rename_i far
    exact ⟨nofun, fun ⟨eq, near⟩ => absurd (eq ▸ near) far⟩

/-- A page that begins where a file can have it is sought there. -/
theorem seek_of_lt (near : page.toNat * d.pageSize < 2 ^ 63) :
    d.seek page = .ok (page.toNat * d.pageSize) :=
  seek_eq_ok_iff.2 ⟨Nat.mod_eq_of_lt (Nat.lt_trans near (by decide)), near⟩

/-- A page that begins behind all that a file can have is refused. -/
theorem seek_of_le (far : 2 ^ 63 ≤ page.toNat * d.pageSize)
    (straight : page.toNat * d.pageSize < 2 ^ 64) : d.seek page = .error .outOfRange := by
  rw [seek, PageFile.toNat_offset, Nat.mod_eq_of_lt straight]
  exact if_neg (Nat.not_lt.2 far)

/-- **Pages of at most `2 ^ 31` bytes** are all sought where they are. -/
theorem seek_of_small (small : d.pageSize ≤ 2 ^ 31) (page : UInt32) :
    d.seek page = .ok (page.toNat * d.pageSize) :=
  seek_of_lt (Nat.lt_of_le_of_lt (Nat.mul_le_mul_left _ small)
    (Nat.mul_lt_mul_of_pos_right page.toNat_lt (Nat.two_pow_pos 31)))

end

/-! ## Writing a page -/

/-- A page that is written is as long as pages are, and written where it is sought. -/
theorem write_ok {d' : Disk} {page : UInt32} {bytes : List UInt8}
    (h : d.write page bytes = .ok d') : bytes.length = d.pageSize ∧
      ∃ start, d.seek page = .ok start ∧
        d' = { d with file := PageFile.writeAt d.file start bytes, writes := d.writes + 1 } := by
  unfold write at h
  split at h
  · cases h
  · rename_i fits
    cases sought : d.seek page with
    | error halt =>
      rw [sought] at h
      cases h
    | ok start =>
      rw [sought] at h
      exact ⟨not_not.1 fits, start, rfl, (Except.ok.inj h).symm⟩

/-- A page that does not wrap is written where it is. -/
theorem write_straight {d' : Disk} {page : UInt32} {bytes : List UInt8}
    (straight : page.toNat * d.pageSize < 2 ^ 64) (h : d.write page bytes = .ok d') :
    bytes.length = d.pageSize ∧
      d' = { d with file := PageFile.write d.file d.pageSize page bytes, writes := d.writes + 1 } := by
  obtain ⟨length, start, sought, rfl⟩ := write_ok h
  obtain ⟨rfl, -⟩ := seek_eq_ok_iff.1 sought
  rw [Nat.mod_eq_of_lt straight]
  exact ⟨length, rfl⟩

/-- **A page is written** if it begins where a file can have it. -/
theorem write_of_lt {page : UInt32} {bytes : List UInt8} (length : bytes.length = d.pageSize)
    (near : page.toNat * d.pageSize < 2 ^ 63) : d.write page bytes = .ok
      { d with file := PageFile.write d.file d.pageSize page bytes, writes := d.writes + 1 } := by
  rw [write, if_neg (not_not.2 length), seek_of_lt near]
  rfl

/-- It is refused if it begins behind that. -/
theorem write_of_le {page : UInt32} {bytes : List UInt8} (length : bytes.length = d.pageSize)
    (far : 2 ^ 63 ≤ page.toNat * d.pageSize) (straight : page.toNat * d.pageSize < 2 ^ 64) :
    d.write page bytes = .error .outOfRange := by
  rw [write, if_neg (not_not.2 length), seek_of_le far straight]
  rfl

/-- **What is appended** is written to the page that is counted. -/
theorem allocate_eq {n : UInt32} (count : d.pageCount = .ok n) (bytes : List UInt8) :
    d.allocate bytes = (d.write n bytes).map (n, ·) := by
  by_cases fits : bytes.length ≠ d.pageSize
  · rw [allocate, write, if_pos fits, if_pos fits]
    rfl
  · rw [allocate, write, if_neg fits, if_neg fits, count]
    dsimp only [bind, Except.bind]
    rw [write, if_neg fits]
    rfl

/-- What is appended is written to some page. -/
theorem write_of_allocate {d' : Disk} {page : UInt32} {bytes : List UInt8}
    (h : d.allocate bytes = .ok (page, d')) : d.write page bytes = .ok d' := by
  cases count : d.pageCount with
  | error halt =>
    rw [allocate, count] at h
    split at h <;> cases h
  | ok n =>
    rw [allocate_eq count] at h
    cases written : d.write n bytes with
    | error halt =>
      rw [written] at h
      cases h
    | ok d'' =>
      rw [written] at h
      obtain ⟨rfl, rfl⟩ := Prod.ext_iff.1 (Except.ok.inj h)
      exact written

/-! ## Pages that were written -/

/-- **A disk that spans its pages**: the file is as long as the highest page that was
written says. -/
structure Spans (size : Nat) (d : Disk) (pages : List UInt32) : Prop where
  pageSize : d.pageSize = size
  file : d.file.size = span pages * size

/-- A page more is spanned when it is written. -/
theorem Spans.write {d' : Disk} {page : UInt32} {bytes : List UInt8} (spans : Spans size d pages)
    (straight : page.toNat * size < 2 ^ 64) (h : d.write page bytes = .ok d') :
    Spans size d' (page :: pages) := by
  obtain ⟨rfl, file⟩ := spans
  obtain ⟨length, rfl⟩ := write_straight straight h
  exact ⟨rfl, PageFile.size_write_span length file⟩

namespace Reached

/-- **All pages that were written are spanned**, and no others. -/
theorem spans (reached : Reached size d pages) (straight : Unwrapped size pages) :
    Spans size d pages := by
  induction reached with
  | opened => exact ⟨rfl, (Nat.zero_mul size).symm⟩
  | written _ h ih =>
    obtain ⟨page, pages⟩ := unwrapped_cons.1 straight
    exact (ih pages).write page h
  | appended _ h ih =>
    obtain ⟨page, pages⟩ := unwrapped_cons.1 straight
    exact (ih pages).write page (write_of_allocate h)

/-- The pages are counted as a word. -/
theorem pageCount_eq (reached : Reached size d pages) (straight : Unwrapped size pages)
    (pos : 0 < size) : d.pageCount = .ok (UInt32.ofNat (span pages)) := by
  obtain ⟨rfl, spans⟩ := reached.spans straight
  rw [pageCount, if_neg (Nat.ne_of_gt pos), spans, PageFile.pageCount_mul pos]

/-- **All pages that were written are below the count**, if the last page was not and none
wraps. -/
theorem exists_above (reached : Reached size d pages) (straight : Unwrapped size pages)
    (pos : 0 < size) (free : 4294967295 ∉ pages) :
    ∃ n : UInt32, n.toNat = span pages ∧ d.pageCount = .ok n ∧ ∀ page ∈ pages, page < n := by
  have less : span pages < 4294967296 :=
    Nat.lt_of_le_of_ne (PageFile.span_le pages) (mt PageFile.span_eq_iff.1 free)
  have number : (UInt32.ofNat (span pages)).toNat = span pages := UInt32.toNat_ofNat_of_lt' less
  refine ⟨_, number, reached.pageCount_eq straight pos, fun page written => ?_⟩
  rw [UInt32.lt_iff_toNat_lt, number]
  exact PageFile.lt_span_iff.2 ⟨page, written, Nat.le_refl _⟩

/-- **No pages are counted** once the last page was written. -/
theorem pageCount_eq_zero (reached : Reached size d pages) (straight : Unwrapped size pages)
    (pos : 0 < size) (last : 4294967295 ∈ pages) : d.pageCount = .ok 0 := by
  rw [reached.pageCount_eq straight pos, PageFile.span_eq_iff.2 last]
  rfl

/-- No page begins behind what a file can have. -/
theorem size_lt (reached : Reached size d pages) :
    d.pageSize = size ∧ d.file.size < 2 ^ 63 + size := by
  have step {d d' : Disk} {page : UInt32} {bytes : List UInt8} (h : d.write page bytes = .ok d')
      (short : d.pageSize = size ∧ d.file.size < 2 ^ 63 + size) :
      d'.pageSize = size ∧ d'.file.size < 2 ^ 63 + size := by
    obtain ⟨rfl, short⟩ := short
    obtain ⟨length, start, sought, rfl⟩ := write_ok h
    have near := (seek_eq_ok_iff.1 sought).2
    have grown := PageFile.size_writeAt_le d.file start bytes
    refine ⟨rfl, ?_⟩
    show (PageFile.writeAt d.file start bytes).size < 2 ^ 63 + d.pageSize
    omega
  induction reached with
  | opened => exact ⟨rfl, Nat.lt_of_lt_of_le (Nat.two_pow_pos 63) (Nat.le_add_right ..)⟩
  | written _ h ih => exact step h ih
  | appended _ h ih => exact step (write_of_allocate h) ih

/-- The length of the file is a word: several pages would be longer, if each were longer than
what there can be before it. -/
theorem size_lt_word (reached : Reached size d pages) (word : size < 2 ^ 64)
    (straight : Unwrapped size pages) : d.file.size < 2 ^ 64 := by
  obtain ⟨-, short⟩ := reached.size_lt
  have file := (reached.spans straight).file
  rcases Nat.lt_or_ge (span pages) 2 with few | several
  · have one : span pages * size ≤ 1 * size := Nat.mul_le_mul_right _ (by omega)
    omega
  · have two : 2 * size ≤ span pages * size := Nat.mul_le_mul_right _ several
    omega

/-- **A page that wraps is not below the count**, for a page of such a number is longer than
what there can be before it. -/
theorem pageCount_le (reached : Reached size d pages) {page n : UInt32} (word : size < 2 ^ 64)
    (wraps : 2 ^ 64 ≤ page.toNat * size) (count : d.pageCount = .ok n) : n ≤ page := by
  obtain ⟨rfl, short⟩ := reached.size_lt
  have pos : 0 < d.pageSize := Nat.pos_of_ne_zero fun zero => by
    rw [zero, Nat.mul_zero] at wraps
    omega
  have several : 2 ≤ page.toNat := by
    refine Nat.le_of_not_lt fun few => ?_
    have one : page.toNat * d.pageSize ≤ 1 * d.pageSize := Nat.mul_le_mul_right _ (by omega)
    omega
  have behind : d.file.size ≤ page.toNat * d.pageSize := by
    have two : 2 * d.pageSize ≤ page.toNat * d.pageSize := Nat.mul_le_mul_right _ several
    omega
  rw [pageCount, if_neg (Nat.ne_of_gt pos), Except.ok.injEq] at count
  subst count
  have few : (d.file.size + d.pageSize - 1) / d.pageSize ≤ page.toNat := by
    rw [← PageFile.mul_roundUp pos page.toNat, Nat.mul_comm]
    exact Nat.div_le_div_right (by omega)
  rw [UInt32.le_iff_toNat_le, PageFile.pageCount, UInt32.toNat_ofNat']
  exact Nat.le_trans (Nat.mod_le ..) few

end Reached

/-- **What is appended lies behind all pages that were written**, whatever was written
before, and in whatever order: the pages are counted up to a number above those of all of
them, and the page appended has that number and leaves all bytes of the file as they are,
or is refused if no file can have it. This is so unless the last page that can be named
was written, or one that wraps. Once the last page was written, and none that wraps, no
pages are counted, and what is appended is written over page zero. Once a page was written
that wraps, the pages are not counted up to it. Pages of no bytes are not counted and not
appended. -/
theorem Reached.appends (reached : Reached size d pages) (word : size < 2 ^ 64) :
    (size = 0 → d.pageCount = .error .breach ∧ ∀ bytes, d.allocate bytes = .error .breach) ∧
    (size ≤ 2 ^ 32 → Unwrapped size pages) ∧
    (0 < size → ((∃ n, d.pageCount = .ok n ∧ ∀ page ∈ pages, page < n) ↔
      4294967295 ∉ pages ∧ Unwrapped size pages)) ∧
    (0 < size → 4294967295 ∉ pages → Unwrapped size pages → d.file.size = span pages * size ∧
      ∃ n, d.pageCount = .ok n ∧ (∀ page ∈ pages, page < n) ∧ n ∉ pages ∧
      ∀ bytes, bytes.length = size →
        (n.toNat * size < 2 ^ 63 → ∃ d', d.allocate bytes = .ok (n, d') ∧
          d'.file.toList = d.file.toList ++ bytes) ∧
        (2 ^ 63 ≤ n.toNat * size → d.allocate bytes = .error .outOfRange)) ∧
    (0 < size → 4294967295 ∈ pages → Unwrapped size pages → d.pageCount = .ok 0 ∧
      ∀ bytes, bytes.length = size → ∃ d', d.allocate bytes = .ok (0, d') ∧
        d'.file.toList = bytes ++ d.file.toList.drop size) := by
  obtain ⟨rfl, short⟩ := reached.size_lt
  refine ⟨fun zero => ?_, fun small => unwrapped_of_le small pages, fun pos =>
    ⟨fun ⟨n, count, above⟩ => ?_, fun ⟨free, straight⟩ => ?_⟩, fun pos free straight => ?_,
    fun pos last straight => ⟨reached.pageCount_eq_zero straight pos last, fun bytes length => ?_⟩⟩
  · have count : d.pageCount = .error .breach := if_pos zero
    refine ⟨count, fun bytes => ?_⟩
    rw [allocate, count]
    split <;> rfl
  · have straight : Unwrapped d.pageSize pages := fun page written =>
      Nat.lt_of_not_le fun wraps => absurd (above page written)
        (UInt32.not_lt.2 (reached.pageCount_le word wraps count))
    refine ⟨fun last => ?_, straight⟩
    obtain rfl : n = 0 :=
      Except.ok.inj (count.symm.trans (reached.pageCount_eq_zero straight pos last))
    exact absurd (above _ last) (by decide)
  · obtain ⟨n, -, count, above⟩ := reached.exists_above straight pos free
    exact ⟨n, count, above⟩
  · have file := (reached.spans straight).file
    obtain ⟨n, number, count, above⟩ := reached.exists_above straight pos free
    refine ⟨file, n, count, above, fun written => UInt32.lt_irrefl _ (above _ written),
      fun bytes length => ?_⟩
    rw [allocate_eq count, number, ← file]
    have place : n.toNat * d.pageSize = d.file.size := by rw [number, file]
    refine ⟨fun near => ?_, fun far => ?_⟩
    · rw [write_of_lt length (place ▸ near)]
      exact ⟨_, rfl, PageFile.toList_write_end place⟩
    · have fits := reached.size_lt_word word straight
      rw [write_of_le length (place ▸ far) (place ▸ fits)]
      rfl
  · have near : (0 : UInt32).toNat * d.pageSize < 2 ^ 63 := by
      rw [UInt32.toNat_zero, Nat.zero_mul]
      exact Nat.two_pow_pos 63
    rw [allocate_eq (reached.pageCount_eq_zero straight pos last), write_of_lt length near]
    exact ⟨_, rfl, length ▸ PageFile.toList_write_zero⟩

/-- Pages of one byte. Page zero is written and page one is appended behind it. Then the
last page is written, and the next page is appended over page zero. -/
theorem Reached.appends_last :
    ∃ d₁ d₂ d₃ d₄ : Disk, (ofFile .empty 1).write 0 [7] = .ok d₁ ∧
      d₁.allocate [8] = .ok (1, d₂) ∧ d₂.file.toList = [7, 8] ∧
      d₂.write 4294967295 [9] = .ok d₃ ∧ d₃.pageCount = .ok 0 ∧
      d₃.allocate [5] = .ok (0, d₄) ∧ d₄.file.toList = 5 :: d₃.file.toList.drop 1 := by
  let d₁ : Disk := ⟨PageFile.write .empty 1 0 [7], 1, 0, 1⟩
  have first : (ofFile .empty 1).write 0 [7] = .ok d₁ := write_of_lt rfl (by decide)
  have reached₁ : Reached 1 d₁ [0] := .written .opened first
  obtain ⟨-, straight, -, behind, -⟩ := reached₁.appends (by decide)
  obtain ⟨-, n, counted, -, -, appended⟩ := behind Nat.one_pos (by decide) (straight (by decide))
  have count₁ : d₁.pageCount = .ok 1 := by decide
  obtain rfl : n = 1 := Except.ok.inj (counted.symm.trans count₁)
  obtain ⟨d₂, second, file₂⟩ := (appended [8] rfl).1 (by decide)
  have reached₂ : Reached 1 d₂ [1, 0] := .appended reached₁ second
  have bytes₂ : d₂.pageSize = 1 := reached₂.size_lt.1
  let d₃ : Disk :=
    { d₂ with file := PageFile.write d₂.file d₂.pageSize 4294967295 [9], writes := d₂.writes + 1 }
  have last : d₂.write 4294967295 [9] = .ok d₃ :=
    write_of_lt bytes₂.symm (by rw [bytes₂]; decide)
  have reached₃ : Reached 1 d₃ [4294967295, 1, 0] := .written reached₂ last
  obtain ⟨-, straight₃, -, -, wraps⟩ := reached₃.appends (by decide)
  obtain ⟨none, overwrites⟩ := wraps Nat.one_pos (by decide) (straight₃ (by decide))
  obtain ⟨d₄, third, file₄⟩ := overwrites [5] rfl
  exact ⟨d₁, d₂, d₃, d₄, first, second, file₂.trans rfl, last, none, third, file₄⟩

end Disk

end Tablespace
