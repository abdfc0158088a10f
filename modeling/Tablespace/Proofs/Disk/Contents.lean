import Mathlib.Algebra.Order.Floor.Div
import Tablespace.Proofs.Disk

/-!
# A disk is an array of pages

A file can begin with any bytes, also with a last page that is cut short, and its pages
are written in any order, with any gaps. If the file is continued by zeros without end,
it is an array of pages (`PageFile.pageBytes`): writing a page sets that one, and no other
(`PageFile.pageBytes_write`). So each page holds what was written to it last, or what the
file began with.

What the length of the file says is which pages can be read, which is a matter of its own:
a page that lies in a gap can, and a last page that is cut short cannot.

Of a disk that was used in any way (`Disk.Used`) this is put together in `Disk.Holds`, with
the counters. A call that fails leaves the disk as it was, so it has no part in this. Words
set the bounds: no page was written, and none is asked for, that begins where words wrap. A
page that begins where no file can have it is refused. And the counters wrap
(`Disk.refused_and_recounted`).
-/

namespace Tablespace

namespace PageFile

variable {file : FileImage} {size : Nat} {n m : UInt32} {bytes : List UInt8}

/-- **The bytes of a page**, with zeros where the file does not reach. -/
def pageBytes (file : FileImage) (size : Nat) (n : UInt32) : List UInt8 :=
  (List.range size).map fun i => file.toList.getD (n.toNat * size + i) 0

/-- **A byte after a page was written**: one of the page, or as it was; in a gap it is
zero. -/
theorem getElem?_write (length : bytes.length = size) (i : Nat) :
    (write file size n bytes).toList[i]?
      = if n.toNat * size ≤ i ∧ i < n.toNat * size + size then bytes[i - n.toNat * size]?
        else if i < file.size then file.toList[i]?
        else if i < n.toNat * size then some 0 else none := by
  unfold write writeAt
  split
  · rename_i empty
    -- pages of no bytes leave no gap
    obtain rfl : size = 0 := by rw [← length, List.isEmpty_iff.1 empty, List.length_nil]
    rw [if_neg (by omega), if_neg (by omega : ¬i < n.toNat * 0)]
    split
    · rfl
    · exact List.getElem?_eq_none (by rw [FileImage.length_toList]; omega)
  · rw [FileImage.getElem?_write, length]

/-- **Writing a page sets that page and no other.** -/
theorem pageBytes_write (length : bytes.length = size) :
    pageBytes (write file size m bytes) size n
      = if n = m then bytes else pageBytes file size n := by
  have zero (i : Nat) (behind : ¬i < file.size) : file.toList[i]? = none :=
    List.getElem?_eq_none (by rw [FileImage.length_toList]; omega)
  split
  · rename_i same
    subst same
    refine List.ext_getElem (by rw [pageBytes, List.length_map, List.length_range, length])
      fun i _ inside => ?_
    rw [length] at inside
    simp only [pageBytes, List.getElem_map, List.getElem_range]
    rw [List.getD_eq_getElem?_getD, getElem?_write length, if_pos (by omega),
      Nat.add_sub_cancel_left, List.getElem?_eq_getElem (length ▸ inside), Option.getD_some]
  · rename_i other
    refine List.map_congr_left fun i inside => ?_
    have inside := List.mem_range.1 inside
    have apart : n.toNat * size + size ≤ m.toNat * size ∨ m.toNat * size + size ≤ n.toNat * size :=
      mul_add_le_of_ne other
    rw [List.getD_eq_getElem?_getD, List.getD_eq_getElem?_getD, getElem?_write length,
      if_neg (by omega)]
    split
    · rfl
    · rename_i behind
      rw [zero _ behind]
      split <;> rfl

/-- **A page that can be read** is read as it is. -/
theorem toList_of_covers (covers : Covers file size n) :
    (file.toList.drop (n.toNat * size)).take size = pageBytes file size n := by
  have covers : n.toNat * size + size ≤ file.toList.length := by
    rw [FileImage.length_toList]
    exact covers
  refine List.ext_getElem ?_ fun i _ inside => ?_
  · rw [List.length_take, List.length_drop, pageBytes, List.length_map, List.length_range]
    omega
  · have inside : i < size := by
      simpa only [pageBytes, List.length_map, List.length_range] using inside
    simp only [pageBytes, List.getElem_map, List.getElem_range, List.getElem_take,
      List.getElem_drop]
    rw [List.getD_eq_getElem?_getD, List.getElem?_eq_getElem (by omega), Option.getD_some]

end PageFile

namespace Disk

variable {start : FileImage} {size : Nat} {d d' : Disk} {n : UInt32} {bytes : List UInt8}

/-- **What was done with a disk.** -/
structure History where
  /-- The pages that were written or appended, with their bytes, the latest first. -/
  pages : List (UInt32 × List UInt8)
  /-- How many pages were read since the disk was opened. -/
  reads : Nat
  /-- How many were written or appended since. -/
  writes : Nat

namespace History

variable (h : History)

/-- A page more was written or appended. -/
def put (n : UInt32) (bytes : List UInt8) : History :=
  ⟨(n, bytes) :: h.pages, h.reads, h.writes + 1⟩

/-- A page more was read. -/
def take : History :=
  ⟨h.pages, h.reads + 1, h.writes⟩

/-- The disk was opened again. -/
def reopen : History :=
  ⟨h.pages, 0, 0⟩

/-- **What a page holds** after all this: what was put there last, or what the file began
with. -/
def page (start : FileImage) (size : Nat) (n : UInt32) : List UInt8 :=
  (h.pages.lookup n).getD (PageFile.pageBytes start size n)

/-- **How long a file is** after all this: as long as it began, or up to the end of the
highest page that was put there. -/
def length (start : FileImage) (size : Nat) : Nat :=
  h.pages.foldr (fun entry length => max length ((entry.1.toNat + 1) * size)) start.size

end History

/-- **The disks that a file comes to** when its pages are written, appended and read, and
it is opened again, with what was done. -/
inductive Used (start : FileImage) (size : Nat) : Disk → History → Prop
  | opened : Used start size (ofFile start size) ⟨[], 0, 0⟩
  | written {d d' : Disk} {h : History} {n : UInt32} {bytes : List UInt8} :
    Used start size d h → d.write n bytes = .ok d' → Used start size d' (h.put n bytes)
  | appended {d d' : Disk} {h : History} {n : UInt32} {bytes : List UInt8} :
    Used start size d h → d.allocate bytes = .ok (n, d') → Used start size d' (h.put n bytes)
  | read {d d' : Disk} {h : History} {n : UInt32} {buffer : Nat} {image : Image} :
    Used start size d h → d.read n buffer = .ok (image, d') → Used start size d' h.take
  | reopened {d : Disk} {h : History} :
    Used start size d h → Used start size (ofFile d.file d.pageSize) h.reopen

/-- **What holds of a disk** that was used, by what was done with it. -/
structure Holds (start : FileImage) (size : Nat) (d : Disk) (h : History) : Prop where
  /-- The length of the file is its first length, or the end of the highest page that was
  put there. -/
  length : d.file.size = h.length start size
  /-- A page is read if the file reaches over all of it, and only then. It is what was put
  there last, or what the file began with. Only the counter changes. -/
  readable : ∀ n : UInt32, n.toNat * size < 2 ^ 63 → (n.toNat + 1) * size ≤ d.file.size →
    d.read n size = .ok ((h.page start size n).toArray, { d with reads := d.reads + 1 })
  /-- Any other page is behind the end of the file. -/
  unreadable : ∀ n : UInt32, n.toNat * size < 2 ^ 63 → d.file.size < (n.toNat + 1) * size →
    d.read n size = .error .endOfFile
  /-- A page that is written makes the file as long as it has to be, and changes no byte
  but its own; a gap before it reads as zeros. -/
  writes : ∀ n bytes, bytes.length = size → n.toNat * size < 2 ^ 63 →
    ∃ d', d.write n bytes = .ok d'
      ∧ d'.file.size = max d.file.size ((n.toNat + 1) * size)
      ∧ ∀ i, d'.file.toList[i]?
        = if n.toNat * size ≤ i ∧ i < (n.toNat + 1) * size then bytes[i - n.toNat * size]?
          else if i < d.file.size then d.file.toList[i]?
          else if i < n.toNat * size then some 0 else none
  /-- A page that begins behind all that a file can have is neither read nor written. -/
  refused : ∀ n : UInt32, 2 ^ 63 ≤ n.toNat * size → n.toNat * size < 2 ^ 64 →
    d.read n size = .error .outOfRange
      ∧ ∀ bytes, bytes.length = size → d.write n bytes = .error .outOfRange
  /-- The pages are counted by the length of the file, rounded up, if they are less than
  `2 ^ 32`. The page that is appended is the one with this number, and it is written. -/
  counts : d.file.size ⌈/⌉ size < 4294967296 → ∃ n : UInt32, n.toNat = d.file.size ⌈/⌉ size
    ∧ d.pageCount = .ok n ∧ ∀ bytes, d.allocate bytes = (d.write n bytes).map (n, ·)
  /-- The counters are the numbers of the calls that succeeded since the disk was opened, as
  far as words of 32 bits can tell. -/
  counters : d.reads.toNat = h.reads % 2 ^ 32 ∧ d.writes.toNat = h.writes % 2 ^ 32

/-- **What a disk keeps while it is used.** -/
structure Keeps (start : FileImage) (size : Nat) (d : Disk) (h : History) : Prop where
  pageSize : d.pageSize = size
  length : d.file.size = h.length start size
  pages : ∀ n, PageFile.pageBytes d.file size n = h.page start size n
  counters : d.reads = UInt32.ofNat h.reads ∧ d.writes = UInt32.ofNat h.writes

/-- What is written is kept. -/
theorem Keeps.write {h : History} (keeps : Keeps start size d h) (pos : 0 < size)
    (straight : n.toNat * size < 2 ^ 64) (wrote : d.write n bytes = .ok d') :
    Keeps start size d' (h.put n bytes) := by
  obtain ⟨rfl, length, pages, reads, writes⟩ := keeps
  obtain ⟨fits, rfl⟩ := write_straight straight wrote
  refine ⟨rfl, ?_, fun m => ?_, reads, ?_⟩
  · show (PageFile.write d.file d.pageSize n bytes).size = _
    rw [PageFile.size_write pos fits, length, ← Nat.succ_mul]
    rfl
  · rw [PageFile.pageBytes_write fits, History.page, History.put, List.lookup_cons]
    split
    · rename_i same
      rw [same, beq_self_eq_true]
      rfl
    · rename_i other
      rw [beq_false_of_ne other, pages m]
      rfl
  · show d.writes + 1 = UInt32.ofNat (h.writes + 1)
    rw [writes, UInt32.ofNat_add]
    rfl

/-- Only the counter changes when a page is read. -/
theorem read_ok {buffer : Nat} {image : Image} (read : d.read n buffer = .ok (image, d')) :
    d' = { d with reads := d.reads + 1 } := by
  unfold Disk.read at read
  split at read
  · cases read
  · cases sought : d.seek n with
    | error halt =>
      rw [sought] at read
      cases read
    | ok position =>
      rw [sought] at read
      dsimp only [bind, Except.bind] at read
      split at read
      · cases read
      · exact (Prod.ext_iff.1 (Except.ok.inj read)).2.symm

/-- A page is read where it is. -/
theorem read_of_lt (near : n.toNat * d.pageSize < 2 ^ 63) : d.read n d.pageSize
    = match PageFile.read? d.file d.pageSize n with
      | none => .error .endOfFile
      | some image => .ok (image, { d with reads := d.reads + 1 }) := by
  rw [Disk.read, if_neg (not_not.2 rfl), seek_of_lt near, PageFile.read?]
  rfl

/-- **A disk keeps what was written to it**, in whatever way it is used. -/
theorem Used.keeps {h : History} (used : Used start size d h) (pos : 0 < size)
    (straight : Unwrapped size (h.pages.map (·.1))) : Keeps start size d h := by
  induction used with
  | opened => exact ⟨rfl, rfl, fun _ => rfl, rfl, rfl⟩
  | written _ wrote ih =>
    obtain ⟨page, pages⟩ := unwrapped_cons.1 straight
    exact (ih pages).write pos page wrote
  | appended _ appended ih =>
    obtain ⟨page, pages⟩ := unwrapped_cons.1 straight
    exact (ih pages).write pos page (write_of_allocate appended)
  | reopened _ ih =>
    have keeps := ih straight
    exact ⟨keeps.pageSize, keeps.length, keeps.pages, rfl, rfl⟩
  | @read d d' h n buffer image _ read ih =>
    have keeps := ih straight
    obtain rfl := read_ok read
    refine ⟨keeps.pageSize, keeps.length, keeps.pages, ?_, keeps.counters.2⟩
    show d.reads + 1 = UInt32.ofNat (h.reads + 1)
    rw [keeps.counters.1, UInt32.ofNat_add]
    rfl

/-- **A disk is an array of pages**, whatever its file began with and whatever was written,
appended and read, and however often it was opened again, as long as no page was written
that begins where words wrap. -/
theorem Used.holds {h : History} (used : Used start size d h) (pos : 0 < size)
    (straight : Unwrapped size (h.pages.map (·.1))) : Holds start size d h := by
  obtain ⟨rfl, length, pages, reads, writes⟩ := used.keeps pos straight
  exact
    { length := length
      readable := fun n near covers => by
        have covers : PageFile.Covers d.file d.pageSize n := by
          rwa [PageFile.Covers, ← Nat.succ_mul]
        rw [read_of_lt near, PageFile.read?_of_covers pos covers, PageFile.toList_of_covers covers,
          pages n]
      unreadable := fun n near behind => by
        have behind : ¬PageFile.Covers d.file d.pageSize n := by
          rwa [PageFile.Covers, ← Nat.succ_mul, Nat.not_le]
        rw [read_of_lt near, PageFile.read?_of_not_covers pos behind]
      writes := fun n bytes fits near => by
        refine ⟨_, write_of_lt fits near, ?_, fun i => ?_⟩
        · exact (PageFile.size_write pos fits).trans (by rw [Nat.succ_mul])
        · rw [Nat.succ_mul]
          exact PageFile.getElem?_write fits i
      refused := fun n far straight => by
        refine ⟨?_, fun bytes fits => write_of_le fits far straight⟩
        rw [Disk.read, if_neg (not_not.2 rfl), seek_of_le far straight]
        rfl
      counts := fun few => by
        have count : d.pageCount = .ok (UInt32.ofNat (d.file.size ⌈/⌉ d.pageSize)) := by
          rw [pageCount, if_neg (Nat.ne_of_gt pos), PageFile.pageCount, Nat.ceilDiv_eq_add_pred_div]
        exact ⟨_, UInt32.toNat_ofNat_of_lt' few, count, allocate_eq count⟩
      counters := by
        rw [reads, writes, UInt32.toNat_ofNat', UInt32.toNat_ofNat']
        exact ⟨rfl, rfl⟩ }

/-- A file of three bytes, with pages of two: the second page is cut short. A page is
written behind a gap and another one is appended; the second page can be read then. The
disk is opened again, and a page is read. -/
theorem Used.holds_gap :
    ∃ d h, Used (.ofImage #[1, 2, 3]) 2 d h ∧ Holds (.ofImage #[1, 2, 3]) 2 d h
      ∧ d.file.toList = [1, 2, 3, 0, 0, 0, 7, 8, 5, 6]
      ∧ [1, 2, 3, 4].map (h.page (.ofImage #[1, 2, 3]) 2) = [[3, 0], [0, 0], [7, 8], [5, 6]]
      ∧ d.reads = 1 ∧ d.writes = 0 := by
  let d₁ : Disk := ⟨PageFile.write (.ofImage #[1, 2, 3]) 2 3 [7, 8], 2, 0, 1⟩
  have first : (ofFile (.ofImage #[1, 2, 3]) 2).write 3 [7, 8] = .ok d₁ :=
    write_of_lt rfl (by decide)
  let d₂ : Disk := ⟨PageFile.write d₁.file 2 4 [5, 6], 2, 0, 2⟩
  have count : d₁.pageCount = .ok 4 := by decide
  have second : d₁.allocate [5, 6] = .ok (4, d₂) := by
    rw [allocate_eq count, write_of_lt rfl (by decide)]
    rfl
  let d₃ : Disk := ⟨d₂.file, 2, 1, 0⟩
  have third : (ofFile d₂.file d₂.pageSize).read 1 2 = .ok (#[3, 0], d₃) := by decide +kernel
  have used : Used (.ofImage #[1, 2, 3]) 2 d₃ ⟨[(4, [5, 6]), (3, [7, 8])], 1, 0⟩ :=
    .read (.reopened (.appended (.written .opened first) second)) third
  exact ⟨_, _, used, used.holds Nat.two_pos (unwrapped_of_le (by decide) _), by decide +kernel,
    by decide +kernel, rfl, rfl⟩

/-- Page zero is read as often as wanted. -/
theorem used_reads (start : FileImage) (pos : 0 < size) (covers : size ≤ start.size) (times : Nat) :
    ∃ d, Used start size d ⟨[], times, 0⟩ := by
  induction times with
  | zero => exact ⟨_, .opened⟩
  | succ times ih =>
    obtain ⟨d, used⟩ := ih
    have holds := used.holds pos (List.forall_mem_nil _)
    have read := holds.readable 0 (by rw [UInt32.toNat_zero, Nat.zero_mul]; decide)
      (by rw [UInt32.toNat_zero, Nat.zero_add, Nat.one_mul, holds.length]; exact covers)
    exact ⟨_, .read used read⟩

/-- **What a disk cannot do.** A page of an empty file is refused, not for the end of the file.
And when a page has been read `2 ^ 32` times, the counter says that none was. -/
theorem refused_and_recounted :
    (ofFile .empty 2147483649).read 4294967295 2147483649 = .error .outOfRange
      ∧ ∃ d, Used (.ofImage #[7]) 1 d ⟨[], 4294967296, 0⟩ ∧ d.reads = 0 := by
  refine ⟨rfl, ?_⟩
  obtain ⟨d, used⟩ := used_reads (.ofImage #[7]) Nat.one_pos (by decide) 4294967296
  have counted := (used.holds Nat.one_pos (unwrapped_of_le (by decide) _)).counters.1
  exact ⟨d, used, UInt32.toNat_inj.1 counted⟩

end Disk

end Tablespace
