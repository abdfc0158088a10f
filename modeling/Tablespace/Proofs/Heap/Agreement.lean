import Tablespace.Proofs.Heap.Insertion
import Tablespace.Proofs.Heap.Scan
import Tablespace.Proofs.Pool.Agreement

/-!
# Insertions, deletions and scans of engines that agree

An insertion goes through the same pages in engines that agree, finds the same
slot, and takes and gives back the same locks (`Engine.Paired.insert`); a
deletion empties the same slot (`Engine.Paired.deleteAt`); a scan gives the same
rows (`HeapScan.matched_next`). None of them looks at the cache other than by
fetching pages – but for the number of steps that an insertion is granted,
which is always enough (`HeapFile.insertFrom_congr`).
-/

namespace Tablespace

/-! ## Insertion -/

namespace HeapFile

variable {f : HeapFile} {e : Engine} {t : TxnId} {row : Tuple} {p : PageId}

/-- A page that was overrun before an insertion is overrun still. -/
theorem Inserted.overrun {result : Except Halt (Tuple × Page) × InsertionStage × Engine}
    (inserted : f.Inserted t row e result) (coherent : e.Coherent) (hit : e.Overrun p) :
    result.2.2.Overrun p := by
  obtain ⟨outcome, stage, e'⟩ := result
  cases outcome with
  | error halt => exact (inserted.1.moves.effect coherent).overrun hit
  | ok stored =>
    obtain ⟨e₁, record, first, -, -, altered⟩ := inserted
    have still := (first.moves.effect coherent).overrun hit
    rw [altered.after]
    exact (Engine.overrun_congr (e := e₁) rfl rfl).2 still

/-- **Insertions that have come equally far**, with the same locks, in files
that are as long. -/
structure SameStage (s s' : InsertionStage × Engine) : Prop where
  stage : s'.1 = s.1
  locks : s'.2.locks = s.2.locks
  sizes : s.2.SameSizes s'.2

/-- **Two insertions that come to the same**: they store the row in the same
place. -/
abbrev SameInsertion :
    Except Halt (Tuple × Page) × InsertionStage × Engine →
      Except Halt (Tuple × Page) × InsertionStage × Engine → Prop :=
  Matched (fun a b => b.1 = a.1) SameStage

end HeapFile

namespace Engine

open HeapFile (SameInsertion SameStage)

variable {e₁ e₂ : Engine} {t : TxnId} {p : PageId} {f : HeapFile} {row : Tuple} {steps : Nat}
  {stage : InsertionStage}

/-- The same lock is given back. -/
theorem locks_giveBack (before : Option LockMode) (same : e₂.locks = e₁.locks) :
    (e₂.giveBack t p before).locks = (e₁.giveBack t p before).locks := by
  unfold giveBack changeLocks
  split
  · exact congrArg (·.release t p) same
  · exact congrArg (·.downgrade t p) same
  · exact same

namespace Paired

variable (paired : Paired e₁ e₂)

include paired

/-- **An append** to the same file leaves the files as long as each other. -/
theorem sizes_append (file : e₁.catalog.file f.table = .ok f) :
    SameSizes { e₁ with volume := (f.appendPage e₁.volume).2 }
      { e₂ with volume := (f.appendPage e₂.volume).2 } := by
  intro table g found
  have file₂ : e₂.catalog.file f.table = .ok f := paired.agree.catalog ▸ file
  have found₂ : e₂.catalog.file table = .ok g := paired.agree.catalog ▸ found
  simp only [HeapFile.appendPage_eq]
  rw [paired.left.size_writeAt file List.length_replicate found,
    paired.right.size_writeAt file₂ List.length_replicate found₂, paired.pageCount file,
    paired.agree.sizes _ f file, paired.agree.sizes _ g found]

/-- **Trying a page** comes to the same in engines that agree. -/
theorem tryInsert (t : TxnId) (row : Tuple) (p : PageId) :
    Matched (fun a b => b.map Prod.fst = a.map Prod.fst) (fun y₁ y₂ => y₂.locks = y₁.locks)
      ((Engine.tryInsert t row p).on e₁) ((Engine.tryInsert t row p).on e₂) := by
  have fetched := paired.fetch t p .exclusive
  rw [on_tryInsert, on_tryInsert, paired.agree.locks]
  generalize (Engine.fetch t p .exclusive).on e₁ = r₁ at fetched ⊢
  generalize (Engine.fetch t p .exclusive).on e₂ = r₂ at fetched ⊢
  cases fetched with
  | noRoomLeft => exact .noRoomLeft
  | noRoomRight => exact .noRoomRight
  | halts halt after => exact .halts halt after.agree.locks
  | @answers d₁ d₂ y₁ y₂ rows after =>
    dsimp only
    rw [rows.hasFreeSlot, rows.insert]
    split
    · cases (d₁.insert row).1 with
      | error cause => exact .halts _ after.agree.locks
      | ok stored => exact .answers rfl after.agree.locks
    · exact .answers rfl (locks_giveBack _ after.agree.locks)

variable (t row) in
/-- **A step of an insertion** comes to the same in engines that agree. -/
theorem insertStep (file : e₁.catalog.file f.table = .ok f) (stage : InsertionStage) :
    Matched (fun a b => b.map Prod.fst = a.map Prod.fst) SameStage
      ((f.insertStep t row).on (stage, e₁)) ((f.insertStep t row).on (stage, e₂)) := by
  rcases stage.trichotomy with ⟨page, full, tries⟩ | ⟨next, limit, rfl, last⟩ | ⟨limit, rfl⟩
  · have file₂ : e₂.catalog.file f.table = .ok f := paired.agree.catalog ▸ file
    have same := paired.tryInsert t row ⟨f.table, page⟩
    have tried₁ := tryInsert_spec (p := ⟨f.table, page⟩) t row paired.left file
    have tried₂ := tryInsert_spec (p := ⟨f.table, page⟩) t row paired.right file₂
    obtain ⟨catalog, volume₁⟩ := tried₁.files paired.left
    obtain ⟨-, volume₂⟩ := tried₂.files paired.right
    rw [HeapFile.on_insertStep_tries tries, HeapFile.on_insertStep_tries tries]
    generalize (Engine.tryInsert t row ⟨f.table, page⟩).on e₁ = r₁ at same catalog volume₁ ⊢
    generalize (Engine.tryInsert t row ⟨f.table, page⟩).on e₂ = r₂ at same volume₂ ⊢
    have sizes : r₁.2.SameSizes r₂.2 := fun table g found => by
      rw [volume₁, volume₂]
      exact paired.agree.sizes table g (catalog ▸ found)
    cases same with
    | noRoomLeft => exact .noRoomLeft
    | noRoomRight => exact .noRoomRight
    | halts halt locks => exact .halts halt ⟨rfl, locks, sizes⟩
    | @answers a b y₁ y₂ same locks =>
      cases a <;> cases b
      · exact .answers same ⟨rfl, locks, sizes⟩
      · cases same
      · cases same
      · exact .answers same ⟨rfl, locks, sizes⟩
  · rw [HeapFile.on_insertStep_append last, HeapFile.on_insertStep_append last,
      paired.pageCount file]
    exact .answers rfl ⟨rfl, paired.agree.locks, paired.sizes_append file⟩
  · rw [HeapFile.on_insertStep_counting, HeapFile.on_insertStep_counting, paired.pageCount file]
    exact .answers rfl ⟨rfl, paired.agree.locks, paired.agree.sizes⟩

/-- **An insertion comes to the same** in engines that agree, from wherever it
has come to, if nothing is overrun. -/
theorem insertFrom (file : e₁.catalog.file f.table = .ok f) (known : stage.Known f e₁.volume)
    (intact : ((f.insertFrom t row steps).on (stage, e₁)).2.2.Intact) :
    SameInsertion ((f.insertFrom t row steps).on (stage, e₁))
      ((f.insertFrom t row steps).on (stage, e₂)) := by
  induction steps generalizing stage e₁ e₂ with
  | zero => exact .halts _ ⟨rfl, paired.agree.locks, paired.agree.sizes⟩
  | succ steps ih =>
    have file₂ : e₂.catalog.file f.table = .ok f := paired.agree.catalog ▸ file
    have known₂ : stage.Known f e₂.volume := known.mono (.inl (paired.agree.sizes _ f file))
    have same := paired.insertStep t row file stage
    have spec₁ := HeapFile.insertStep_spec t row .refl paired.left file known
    have spec₂ := HeapFile.insertStep_spec t row .refl paired.right file₂ known₂
    rw [HeapFile.on_insertFrom_succ] at intact ⊢
    rw [HeapFile.on_insertFrom_succ]
    generalize (f.insertStep t row).on (stage, e₁) = r₁ at same spec₁ intact ⊢
    generalize (f.insertStep t row).on (stage, e₂) = r₂ at same spec₂ ⊢
    cases same with
    | noRoomLeft => exact .noRoomLeft
    | noRoomRight => exact .noRoomRight
    | halts halt after => exact .halts halt after
    | @answers a b s₁ s₂ same after =>
      cases a <;> cases b
      · -- both go on from states that agree
        obtain ⟨stage₁, y₁⟩ := s₁
        obtain ⟨stage₂, y₂⟩ := s₂
        obtain ⟨rfl, locks, sizes⟩ := after
        obtain ⟨first₁, known₁⟩ := spec₁
        have effect := first₁.moves.effect paired.left
        have file' := effect.catalog ▸ file
        have intact' : y₁.Intact := fun q hit => intact q
          ((HeapFile.insertFrom_spec t row steps effect.coherent file' known₁).overrun
            effect.coherent hit)
        exact ih (paired.moves first₁.moves spec₂.1.moves locks sizes intact') file' known₁ intact
      · cases same
      · cases same
      · exact .answers (Option.some.inj same) after

variable (t row) in
/-- **An insertion comes to the same**, however many pages there are in the
caches. -/
theorem insert (steps : Option Nat) (file : e₁.catalog.file f.table = .ok f)
    (known : stage.Known f e₁.volume)
    (intact : ((f.insert t row steps).on (stage, e₁)).2.2.Intact) :
    SameInsertion ((f.insert t row steps).on (stage, e₁))
      ((f.insert t row steps).on (stage, e₂)) := by
  rw [HeapFile.on_insert] at intact ⊢
  rw [HeapFile.on_insert]
  cases steps with
  | some n => exact paired.insertFrom file known intact
  | none =>
    have file₂ : e₂.catalog.file f.table = .ok f := paired.agree.catalog ▸ file
    have known₂ : stage.Known f e₂.volume := known.mono (.inl (paired.agree.sizes _ f file))
    -- both insertions take no more steps than they need, which are as many
    have need₁ := HeapFile.need_le_insertionFuel (f := f) (e := e₁) stage
    have need₂ := HeapFile.need_le_insertionFuel (f := f) (e := e₂) stage
    have steps₁ := HeapFile.insertFrom_congr t row paired.left file
      (paired.intact.count_lt file) known need₁ (Nat.le_refl _)
    have steps₂ := HeapFile.insertFrom_congr t row paired.right file₂
      (paired.intact_right.count_lt file₂) known₂ need₂ (Nat.le_refl _)
    rw [paired.pageCount file] at steps₂
    rw [Option.getD_none] at intact ⊢
    rw [Option.getD_none]
    rw [steps₁] at intact ⊢
    rw [steps₂]
    exact paired.insertFrom file known intact

/-! ## Deletion -/

/-- **A deletion comes to the same** in engines that agree. -/
theorem deleteAt (t : TxnId) (row : Tuple) (record : RecordId) :
    Matched (fun _ _ => True) (fun y₁ y₂ => y₂.locks = y₁.locks)
      ((Engine.deleteAt t row record).on e₁) ((Engine.deleteAt t row record).on e₂) := by
  have fetched := paired.fetch t record.page .exclusive
  rw [on_deleteAt, on_deleteAt]
  generalize (Engine.fetch t record.page .exclusive).on e₁ = r₁ at fetched ⊢
  generalize (Engine.fetch t record.page .exclusive).on e₂ = r₂ at fetched ⊢
  cases fetched with
  | noRoomLeft => exact .noRoomLeft
  | noRoomRight => exact .noRoomRight
  | halts halt after => exact .halts halt after.agree.locks
  | @answers d₁ d₂ y₁ y₂ rows after =>
    have answer := rows.delete row
    dsimp only
    generalize d₁.delete row = one at answer
    generalize d₂.delete row = two at answer
    cases one with
    | error cause =>
      cases two with
      | error cause' =>
        obtain rfl : cause' = cause := Except.error.inj answer
        exact .halts _ after.agree.locks
      | ok q₂ => cases answer
    | ok q₁ =>
      cases two with
      | error cause => cases answer
      | ok q₂ => exact .answers trivial after.agree.locks

end Paired

end Engine

/-! ## Scans -/

namespace HeapScan

open Engine (Paired SameOwn)

variable {s : HeapScan} {e₁ e₂ : Engine}

variable (paired : Paired e₁ e₂) (pos : ScanPosition)

include paired

/-- **Taking a page** comes to the same. -/
theorem matched_take (state : ScanPosition) :
    Matched Eq SameOwn ((s.take pos).on (state, e₁)) ((s.take pos).on (state, e₂)) := by
  have fetched := paired.fetch s.txn ⟨s.file.table, UInt32.ofNat pos.next⟩ .shared
  rw [on_take, on_take]
  generalize (Engine.fetch s.txn ⟨s.file.table, UInt32.ofNat pos.next⟩ .shared).on e₁ = r₁
    at fetched ⊢
  generalize (Engine.fetch s.txn ⟨s.file.table, UInt32.ofNat pos.next⟩ .shared).on e₂ = r₂
    at fetched ⊢
  cases fetched with
  | noRoomLeft => exact .noRoomLeft
  | noRoomRight => exact .noRoomRight
  | halts halt after => exact .halts halt ⟨rfl, after⟩
  | @answers d₁ d₂ y₁ y₂ rows after =>
    have given : d₂.rows = d₁.rows := by rw [Page.rows, Page.rows, rows.tuples]
    dsimp only
    rw [given]
    exact .answers rfl ⟨rfl, after⟩

variable (file : e₁.catalog.file s.file.table = .ok s.file)

include file

theorem matched_fill (n : Nat) :
    Matched Eq SameOwn ((s.fill n).on (pos, e₁)) ((s.fill n).on (pos, e₂)) := by
  induction n generalizing pos e₁ e₂ with
  | zero => exact .halts _ ⟨rfl, paired⟩
  | succ n ih =>
    have took := matched_take (s := s) paired pos pos
    have looks := looks_take s pos pos paired.left
    rw [on_fill, on_fill, paired.pageCount file]
    split
    · exact .answers rfl ⟨rfl, paired⟩
    · split
      · exact .answers rfl ⟨rfl, paired⟩
      · generalize (s.take pos).on (pos, e₁) = r₁ at took looks ⊢
        generalize (s.take pos).on (pos, e₂) = r₂ at took ⊢
        cases took with
        | noRoomLeft => exact .noRoomLeft
        | noRoomRight => exact .noRoomRight
        | halts halt after => exact .halts halt after
        | @answers _ _ y₁ y₂ _ after =>
          obtain ⟨position, after⟩ := after
          dsimp only
          rw [position]
          exact ih after y₁.1 (looks.catalog paired.left ▸ file)

/-- **Whether there is a row to give** comes to the same. -/
theorem matched_hasNext (steps : Option Nat) :
    Matched Eq SameOwn ((s.hasNext steps).on (pos, e₁)) ((s.hasNext steps).on (pos, e₂)) := by
  rw [hasNext, Turn.on_bind_ok (Turn.on_get _), Turn.on_bind_ok (Turn.on_get _)]
  dsimp only
  rw [paired.pageCount file]
  exact matched_fill paired pos file _

/-- **The next row** is the same. -/
theorem matched_next (steps : Option Nat) :
    Matched Eq SameOwn ((s.next steps).on (pos, e₁)) ((s.next steps).on (pos, e₂)) := by
  have asked := matched_hasNext paired pos file steps
  rw [on_next, on_next]
  generalize (s.hasNext steps).on (pos, e₁) = r₁ at asked ⊢
  generalize (s.hasNext steps).on (pos, e₂) = r₂ at asked ⊢
  cases asked with
  | noRoomLeft => exact .noRoomLeft
  | noRoomRight => exact .noRoomRight
  | halts halt after => exact .halts halt after
  | @answers _ _ y₁ y₂ _ after =>
    obtain ⟨position, after⟩ := after
    dsimp only
    rw [position]
    cases y₁.1.pending with
    | nil => exact .halts _ ⟨rfl, after⟩
    | cons row pending => exact .answers rfl ⟨rfl, after⟩

end HeapScan

end Tablespace
