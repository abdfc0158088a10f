import Tablespace.Proofs.Pool.Exchange
import Tablespace.Proofs.Session.Carried

/-!
# Transactions end in any order

In whatever state a pool is, if the tables that were ever registered are registered, two
transactions can end, each by commit or by abort, and neither end fails. Whichever ends first, the
same is left (`Engine.Reachable.ends_commute`): the locks, the pages in the cache and who has
changed them, and, if every table has a file of its own, all bytes of the files and of the pages.

Two tables that keep their rows in one file are the exception. A page of the file is two pages of
the cache then, which two transactions can change without a lock in common. If both commit, the
page is in the file as the one has left it that was the last (`Engine.commits_in_order`).
-/

namespace Tablespace

namespace Engine

variable {e : Engine} {home : Catalog} {deed : Deed} {t u : TxnId}

/-! ## Pages of tables at home -/

/-- **An engine in order whose pages are pages of files at home**, of which two may be one. -/
structure Lodged (home : Catalog) (e : Engine) : Prop where
  orderly : e.Orderly
  /-- A table is registered with its file. -/
  registered : ∀ entry ∈ e.catalog.entries, home.file entry.table = .ok entry.file
  /-- What is in the cache is a state of a page of a file. -/
  cached : ∀ p frame, e.frame? p = some frame → home.Fits e.volume p frame.page

namespace Lodged

variable (lodged : e.Lodged home)

include lodged

/-- What is loaded is loaded from the file at home. -/
theorem file {table : TableId} {f : HeapFile} (h : e.catalog.file table = .ok f) :
    home.file table = .ok f := by
  obtain ⟨entry, there, rfl, rfl⟩ := Catalog.mem_of_file h
  exact lodged.registered entry there

/-- **Every deed leaves the pages at home.** -/
theorem perform (allowed : deed.Allowed home e) : (e.perform deed).Lodged home := by
  by_cases registers : deed.Registers
  · have entries : ∀ entry ∈ (e.perform deed).catalog.entries,
        home.file entry.table = .ok entry.file := by
      intro entry there
      cases deed with
      | register f name =>
        rcases Catalog.eq_or_mem_of_mem_add there with rfl | old
        · exact allowed
        · exact lodged.registered entry old
      | forget => cases there
      | _ => exact registers.elim
    obtain ⟨catalog, is⟩ := perform_of_registers registers (e := e)
    rw [is] at entries ⊢
    exact ⟨⟨lodged.orderly.locks, lodged.orderly.named, lodged.orderly.numbered⟩, entries,
      lodged.cached⟩
  · by_cases ours : deed.Stores
    · cases deed with
      | store volume =>
        exact ⟨⟨lodged.orderly.locks, lodged.orderly.named, lodged.orderly.numbered⟩,
          lodged.registered, fun p frame there => (lodged.cached p frame there).mono allowed⟩
      | _ => exact ours.elim
    · have carried := lodged.orderly.carried registers ours
      refine ⟨carried.orderly, carried.catalog ▸ lodged.registered, fun p frame there => ?_⟩
      rcases carried.pages p frame there with ⟨old, was, -, alike⟩ | ⟨-, f, file, fits⟩
      · exact ((lodged.cached p old was).alike alike).mono carried.grows
      · obtain ⟨d, read, alike⟩ := fits
        exact ⟨d, (Catalog.readPage_of_file (lodged.file file)).trans read, alike⟩

/-- If all tables are registered, every page is one of a registered file. -/
theorem fitting (fixed : e.catalog = home) : e.Fitting := by
  subst fixed
  exact lodged.cached

end Lodged

/-- **Every state that a pool can come to has its pages at home.** -/
theorem Reachable.lodged (reachable : e.Reachable home) : e.Lodged home := by
  induction reachable with
  | start registered h =>
    obtain rfl := eq_of_start h
    exact ⟨orderly_of_start h, registered, fun p frame there => by simp [frame?] at there⟩
  | perform _ deed allowed ih => exact ih.perform allowed

/-! ## Two transactions end -/

/-- **Two transactions end in either order**, each by commit or by abort: no end fails, and the
same is left. -/
theorem Reachable.ends_commute (reachable : e.Reachable home) (fixed : e.catalog = home)
    (other : u ≠ t) (c d : Bool) :
    let endT := if c then commit t else abort t
    let endU := if d then commit u else abort u
    (endT.on e).1 = .ok () ∧ (endU.on (endT.on e).2).1 = .ok ()
      ∧ (endU.on e).1 = .ok () ∧ (endT.on (endU.on e).2).1 = .ok ()
      ∧ Exchanged t u c d e (endU.on (endT.on e).2).2 (endT.on (endU.on e).2).2
      ∧ (home.Apart →
        (∀ path, ((endU.on (endT.on e).2).2.volume.content path).toList
            = ((endT.on (endU.on e).2).2.volume.content path).toList)
          ∧ ∀ p, (endU.on (endT.on e).2).2.page? p = (endT.on (endU.on e).2).2.page? p) := by
  intro endT endU
  have lodged := reachable.lodged
  have fitting := lodged.fitting fixed
  obtain ⟨e₁, ran, first⟩ := fitting.outcome t c
  obtain ⟨e₂, ran', first'⟩ := fitting.outcome u d
  have grows (v : TxnId) (b : Bool) : e.volume.Grows (e.written (e.commits v b)) :=
    grows_writtenTo _ _
  have fitting₁ : e₁.Fitting := first.fitting fitting (first.volume ▸ grows t c)
  have fitting₂ : e₂.Fitting := first'.fitting fitting (first'.volume ▸ grows u d)
  obtain ⟨e₁₂, again, second⟩ := fitting₁.outcome u d
  obtain ⟨e₂₁, again', second'⟩ := fitting₂.outcome t c
  have exchanged := first.exchanged second first' second' other fitting lodged.orderly.locks
  have ran : endT.on e = (.ok (), e₁) := ran
  have ran' : endU.on e = (.ok (), e₂) := ran'
  have again : endU.on e₁ = (.ok (), e₁₂) := again
  have again' : endT.on e₂ = (.ok (), e₂₁) := again'
  rw [ran, ran']
  dsimp only
  rw [again, again']
  exact ⟨rfl, rfl, rfl, rfl, exchanged, fun apart =>
    exchanged.all_of_apart (fixed ▸ apart) other⟩

/-- A pool in which two transactions have put a row into one of two files each. -/
def parted : Engine :=
  [Deed.insert ⟨1⟩ .numbers (.number 8 none) true (.scanning 0 0),
    .insert ⟨2⟩ .others (.number 9 none) true (.scanning 0 0)].foldl perform pair

/-- One of them commits and the other aborts. -/
theorem ends_commute_parted :
    let first := (abort ⟨2⟩).on ((commit ⟨1⟩).on parted).2
    let second := (commit ⟨1⟩).on ((abort ⟨2⟩).on parted).2
    parted.dirtied ⟨1⟩ = [⟨⟨1⟩, 0⟩] ∧ parted.dirtied ⟨2⟩ = [⟨⟨2⟩, 0⟩]
      ∧ first.1 = .ok () ∧ second.1 = .ok ()
      ∧ Exchanged ⟨1⟩ ⟨2⟩ true false parted first.2 second.2
      ∧ ∀ path, (first.2.volume.content path).toList = (second.2.volume.content path).toList := by
  have reachable : parted.Reachable .pair :=
    (reachable_pair.perform (.insert ⟨1⟩ .numbers (.number 8 none) true (.scanning 0 0))
      trivial).perform (.insert ⟨2⟩ .others (.number 9 none) true (.scanning 0 0)) trivial
  obtain ⟨-, ended, -, ended', exchanged, all⟩ := Reachable.ends_commute (t := ⟨1⟩) (u := ⟨2⟩)
    reachable (by decide +kernel) (by decide) true false
  exact ⟨by decide +kernel, by decide +kernel, ended, ended', exchanged,
    (all Catalog.apart_pair).1⟩

end Engine

/-! ## Two tables in one file -/

/-- **A second table** that keeps its rows in the same file. -/
def HeapFile.twin : HeapFile :=
  { HeapFile.numbers with table := ⟨2⟩ }

/-- Both tables. -/
def Catalog.twins : Catalog :=
  ⟨[⟨"numbers", .numbers⟩, ⟨"twin", .twin⟩], ⟨[("numbers", ⟨1⟩), ("twin", ⟨2⟩)]⟩⟩

namespace Engine

/-- A new pool over the file, which has one empty page, with room for two pages. -/
def twins : Engine :=
  ⟨⟨[], [(["numbers"], .ofImage #[0, 0, 0, 0, 0, 0, 0, 0, 0])]⟩, .twins, .empty, .empty, 0, 2⟩

/-- **Two transactions have put a row into one of the tables each.** -/
def contested : Engine :=
  [Deed.insert ⟨1⟩ .numbers (.number 8 none) true (.scanning 0 1),
    .insert ⟨2⟩ .twin (.number 9 none) true (.scanning 0 1)].foldl perform twins

theorem reachable_contested : contested.Reachable .twins := by
  have registered : ∀ entry ∈ Catalog.twins.entries,
      Catalog.twins.file entry.table = .ok entry.file := by
    decide
  have started : start ⟨9, 2, 1⟩ twins.volume twins.catalog = .ok twins := rfl
  have new : twins.Reachable .twins := .start registered started
  exact (new.perform (.insert ⟨1⟩ .numbers (.number 8 none) true (.scanning 0 1)) trivial).perform
    (.insert ⟨2⟩ .twin (.number 9 none) true (.scanning 0 1)) trivial

/-- Nobody waits, and both rows are in the first slot of the only page of the file. The one is
stored that is committed last. -/
theorem commits_in_order :
    contested.Reachable .twins ∧ contested.catalog = .twins ∧ contested.locks.waits = .empty
      ∧ (((commit ⟨2⟩).on ((commit ⟨1⟩).on contested).2).2.volume.content ["numbers"]).toList
        = [1, 9, 0, 0, 0, 0, 0, 0, 0]
      ∧ (((commit ⟨1⟩).on ((commit ⟨2⟩).on contested).2).2.volume.content ["numbers"]).toList
        = [1, 8, 0, 0, 0, 0, 0, 0, 0] :=
  ⟨reachable_contested, by decide +kernel, by decide +kernel, by decide +kernel, by decide +kernel⟩

end Engine

end Tablespace
