import Tablespace.Proofs.Pool.Completion

/-!
# Engines that agree

Two engines **agree** (`Engine.Agree`) if they differ in their caches only, and
their caches show the same: the locks are the same, the files are as long and
hold the same rows, and a fetch gives pages with the same rows, changed by the
same transactions. Which clean pages are in the caches, in which order, and how
many there is room for are nothing to it.

What a turn does is decided by what two engines agree on, as long as both have
room for the pages that it fetches. So they still agree after the same moves
(`Engine.Paired.moves`), after the end of a transaction (`Engine.Paired.ended`),
and a fetch of the same page comes to the same (`Engine.Paired.fetch`).

Nothing is promised about a file that has come to `2 ^ 32` pages, of which the
next append erases one (`Engine.Overrun`): an engine that has that page in its
cache still shows its rows, and one that has not does not.
-/

namespace Tablespace

/-! ## Outcomes -/

/-- **Two outcomes that are alike**: answers that are, or the same error. -/
def SameOutcome {ε α : Type} (R : α → α → Prop) : Except ε α → Except ε α → Prop
  | .ok a, .ok b => R a b
  | .error x, .error y => x = y
  | .ok _, .error _ | .error _, .ok _ => False

theorem SameOutcome.mono {ε α : Type} {R S : α → α → Prop} {x y : Except ε α}
    (same : SameOutcome R x y) (weaker : ∀ a b, R a b → S a b) : SameOutcome S x y := by
  cases x with
  | error cause => cases y <;> exact same
  | ok a =>
    cases y with
    | error cause => exact same
    | ok b => exact weaker a b same

/-- **Two turns that come to the same**, unless there was no room in one of
them: answers and states that are alike, or the same halt and states that are
alike. -/
inductive Matched {α σ : Type} (R : α → α → Prop) (S : σ → σ → Prop) :
    Except Halt α × σ → Except Halt α × σ → Prop
  | noRoomLeft {s : σ} {r : Except Halt α × σ} : Matched R S (.error (.fault .poolFull), s) r
  | noRoomRight {r : Except Halt α × σ} {s : σ} : Matched R S r (.error (.fault .poolFull), s)
  | halts {s s' : σ} (halt : Halt) (states : S s s') :
    Matched R S (.error halt, s) (.error halt, s')
  | answers {a b : α} {s s' : σ} (same : R a b) (states : S s s') :
    Matched R S (.ok a, s) (.ok b, s')

namespace Engine

variable {e e' e₁ e₂ e₁' e₂' : Engine} {t : TxnId} {p : PageId} {q : Page} {f : HeapFile}
  {mode : LockMode} {changes : List Change}

/-! ## Files that an append does not erase anything of -/

/-- **No page is written over by the next append to its file.** -/
def Intact (e : Engine) : Prop :=
  ∀ p, ¬e.Overrun p

/-- The page count of a file is the number of its pages, if nothing is
overrun. -/
theorem Intact.count_lt (intact : e.Intact) (file : e.catalog.file f.table = .ok f) :
    f.count e.volume < 4294967296 := by
  refine Nat.not_le.1 fun large => intact ⟨f.table, f.pageCount e.volume⟩ ⟨f, file, ?_⟩
  exact HeapFile.overrun_iff.2 ⟨large, HeapFile.toNat_pageCount⟩

/-- Nothing is overrun if no file has come to `2 ^ 32` pages. -/
theorem intact_of_lt
    (small : ∀ table f, e.catalog.file table = .ok f → f.count e.volume < 4294967296) :
    e.Intact := by
  rintro p ⟨f, file, hit⟩
  exact absurd (small _ f file) (Nat.not_lt.2 (HeapFile.overrun_iff.1 hit).1)

/-- An engine whose files are as long is as intact. -/
theorem Intact.of_sizes (intact : e.Intact) (sizes : e.SameSizes e')
    (catalog : e'.catalog = e.catalog) : e'.Intact :=
  fun p hit => intact p ((sizes.overrun_iff catalog).1 hit)

/-! ## Agreement -/

/-- **Two engines that differ in their caches only**, and in nothing that these
show. -/
structure Agree (e₁ e₂ : Engine) : Prop where
  catalog : e₂.catalog = e₁.catalog
  locks : e₂.locks = e₁.locks
  sizes : e₁.SameSizes e₂
  /-- The files hold the same rows. -/
  stored : e₂.stored = e₁.stored
  /-- A fetch shows the same rows. -/
  seen : e₂.seen = e₁.seen
  /-- The same transactions have changed the same pages. -/
  dirty : ∀ t p, e₂.DirtyFor t p ↔ e₁.DirtyFor t p

/-- **Two coherent engines that agree**, of which nothing is overrun. -/
structure Paired (e₁ e₂ : Engine) : Prop where
  left : e₁.Coherent
  right : e₂.Coherent
  intact : e₁.Intact
  agree : e₁.Agree e₂

/-- **Engines that nobody has used agree** over the same files and the same
catalog. -/
theorem agree_of_start {c₁ c₂ : Config} {volume : Volume} {catalog : Catalog}
    (h₁ : start c₁ volume catalog = .ok e₁) (h₂ : start c₂ volume catalog = .ok e₂) :
    e₁.Agree e₂ := by
  rw [eq_of_start h₁, eq_of_start h₂]
  exact ⟨rfl, rfl, fun _ _ _ => rfl, rfl, rfl, fun _ _ => .rfl⟩

namespace Paired

variable (paired : Paired e₁ e₂)

include paired

theorem intact_right : e₂.Intact :=
  paired.intact.of_sizes paired.agree.sizes paired.agree.catalog

theorem pageCount (file : e₁.catalog.file f.table = .ok f) :
    f.pageCount e₂.volume = f.pageCount e₁.volume :=
  HeapFile.pageCount_congr (paired.agree.sizes _ f file)

/-- **The same moves** leave engines that agree in agreement. -/
theorem moves (left : Moves t e₁ changes e₁') (right : Moves t e₂ changes e₂')
    (locks : e₂'.locks = e₁'.locks)
    (sizes : e₁'.SameSizes e₂') (intact : e₁'.Intact) : Paired e₁' e₂' := by
  have agree := paired.agree
  have effect₁ := left.effect paired.left
  have effect₂ := right.effect paired.right
  have catalog : e₂'.catalog = e₁'.catalog := by
    rw [effect₂.catalog, agree.catalog, effect₁.catalog]
  have intact₂ := intact.of_sizes sizes catalog
  exact
    { left := effect₁.coherent
      right := effect₂.coherent
      intact := intact
      agree :=
        { catalog := catalog
          locks := locks
          sizes := sizes
          stored := funext fun r => by
            rw [(effect₂.readPage r.page (intact₂ _)).stored,
              (effect₁.readPage r.page (intact _)).stored, agree.stored]
          seen := funext fun r => by
            rw [effect₂.seen r (intact₂ _), effect₁.seen r (intact _), agree.seen]
          dirty := fun u p => by rw [effect₂.dirty, effect₁.dirty, agree.dirty] } }

/-- Engines that agree do so after looks that take the same locks. -/
theorem looks (left : Looks t e₁ e₁') (right : Looks t e₂ e₂') (locks : e₂'.locks = e₁'.locks) :
    Paired e₁' e₂' := by
  refine paired.moves left.moves right.moves locks (fun table f file => ?_) fun p hit => ?_
  · have catalog := (left.moves.effect paired.left).catalog
    rw [left.volume, right.volume, paired.agree.sizes table f (catalog ▸ file)]
  · exact paired.intact p ((left.overrun_iff paired.left).1 hit)

/-- **The end of a transaction** leaves engines that agree in agreement. -/
theorem ended {committed : Bool} (left : Ended t committed e₁ e₁')
    (right : Ended t committed e₂ e₂') : Paired e₁' e₂' := by
  have agree := paired.agree
  have catalog : e₂'.catalog = e₁'.catalog := by
    rw [right.catalog, agree.catalog, left.catalog]
  have stored : e₂'.stored = e₁'.stored := funext fun r => by
    by_cases written : committed = true ∧ e₁.DirtyFor t r.page
    · rw [left.stored written.1 r written.2,
        right.stored written.1 r ((agree.dirty t _).2 written.2), agree.seen]
    · have same₁ := left.readPage r.page fun c dirty => written ⟨c, dirty⟩
      have same₂ := right.readPage r.page fun c dirty => written ⟨c, (agree.dirty t _).1 dirty⟩
      have before := congrFun agree.stored r
      rw [Engine.stored, Engine.stored] at before ⊢
      rw [same₁, same₂, before]
  have seen : e₂'.seen = e₁'.seen := funext fun r => by
    by_cases changed : e₁.DirtyFor t r.page
    · rw [left.settled r changed, right.settled r ((agree.dirty t _).2 changed), stored]
    · rw [left.seen r changed, right.seen r fun dirty => changed ((agree.dirty t _).1 dirty),
        agree.seen]
  exact
    { left := left.coherent
      right := right.coherent
      intact := paired.intact.of_sizes left.sizes left.catalog
      agree :=
        { catalog := catalog
          locks := by rw [left.locks, right.locks, agree.locks]
          sizes := fun table f file => by
            rw [left.catalog] at file
            rw [left.sizes table f file, right.sizes table f (agree.catalog ▸ file),
              agree.sizes table f file]
          stored := stored
          seen := seen
          dirty := fun u p => by rw [left.dirty, right.dirty, agree.dirty] } }

end Paired

/-! ## Pages -/

/-- A page that cannot be seen cannot be read. -/
theorem Coherent.pageSeen_error (coherent : e.Coherent) {cause : Fault} :
    e.pageSeen p = .error cause ↔ e.readPage p = .error cause := by
  cases there : e.frame? p with
  | none => rw [pageSeen_of_absent there]
  | some frame =>
    obtain ⟨d, read, -⟩ := coherent.cached p frame there
    rw [pageSeen_of_frame there, read]
    exact ⟨fun h => (by cases h), fun h => (by cases h)⟩

/-- The page that is seen tells who has changed it. -/
theorem dirtier_of_seen (seen : e.pageSeen p = .ok q) : q.dirtier = some t ↔ e.DirtyFor t p := by
  cases there : e.frame? p with
  | none =>
    rw [pageSeen_of_absent there] at seen
    rw [(of_readPage seen).2, DirtyFor, there]
    simp
  | some frame =>
    rw [pageSeen_of_frame there] at seen
    cases seen
    rw [DirtyFor, there]
    simp

namespace Paired

variable (paired : Paired e₁ e₂)

include paired

/-- **The files have pages with the same rows.** -/
theorem readPage (p : PageId) : SameOutcome Page.SameRows (e₁.readPage p) (e₂.readPage p) := by
  have catalog := paired.agree.catalog
  cases file : e₁.catalog.file p.table with
  | error cause =>
    have unknown {e : Engine} (h : e.catalog = e₁.catalog) : e.readPage p = .error cause := by
      unfold Engine.readPage
      rw [h, file]
      rfl
    rw [unknown rfl, unknown catalog]
    rfl
  | ok f =>
    have table : f.table = p.table := Catalog.table_of_file file
    have pages := HeapFile.pages_congr (paired.agree.sizes _ f file)
    have read₁ := readPage_of_file file
    have read₂ := readPage_of_file (catalog ▸ file : e₂.catalog.file p.table = .ok f)
    cases one : e₁.readPage p with
    | error cause =>
      rw [read₂, HeapFile.readPage_error_congr pages (read₁ ▸ one)]
      rfl
    | ok q₁ =>
      cases two : e₂.readPage p with
      | error cause =>
        rw [read₁, HeapFile.readPage_error_congr pages.symm (read₂ ▸ two)] at one
        cases one
      | ok q₂ =>
        have alike := alike_of_readPage one two catalog
        refine ⟨⟨alike, ?_⟩, Page.rowAt_congr alike fun slot => ?_⟩
        · rw [(of_readPage one).2, (of_readPage two).2]
        · have rows := congrFun paired.agree.stored ⟨p, slot⟩
          rwa [stored, stored, one, two] at rows

/-- **Fetches show pages with the same rows**, changed by the same
transactions. -/
theorem pageSeen (p : PageId) : SameOutcome Page.SameRows (e₁.pageSeen p) (e₂.pageSeen p) := by
  have disk := paired.readPage p
  cases one : e₁.pageSeen p with
  | error cause =>
    rw [paired.left.pageSeen_error] at one
    cases two : e₂.readPage p with
    | error cause' =>
      rw [one, two] at disk
      rw [paired.right.pageSeen_error.2 two]
      exact disk
    | ok q₂ =>
      rw [one, two] at disk
      exact disk.elim
  | ok q₁ =>
    cases two : e₂.pageSeen p with
    | error cause =>
      obtain ⟨d, read, -⟩ := paired.left.alike_of_pageSeen one
      rw [read, paired.right.pageSeen_error.1 two] at disk
      exact disk.elim
    | ok q₂ =>
      have alike := paired.left.alike_of_seen paired.right paired.agree.catalog one two
      refine ⟨⟨alike, Option.ext fun t => ?_⟩, Page.rowAt_congr alike fun slot => ?_⟩
      · rw [dirtier_of_seen one, dirtier_of_seen two, paired.agree.dirty]
      · have rows := congrFun paired.agree.seen ⟨p, slot⟩
        rwa [seen, seen, one, two] at rows

end Paired

/-- **States that are alike**: the same of what is not the engine, and engines
that agree. -/
structure SameOwn {σ : Type} (s s' : σ × Engine) : Prop where
  own : s'.1 = s.1
  engines : Paired s.2 s'.2

/-! ## Fetching -/

/-- A load gives the page that is seen, unless there is no room for it. -/
theorem on_load_fst (p : PageId) (e : Engine) :
    ((load p).on e).1 = .error (.fault .poolFull)
      ∨ ((load p).on e).1 = (e.pageSeen p).mapError .fault := by
  cases there : e.frame? p with
  | some frame =>
    rw [on_load_of_frame there, pageSeen_of_frame there]
    exact .inr rfl
  | none =>
    rw [on_load_of_absent there, pageSeen_of_absent there]
    cases room : (makeRoom p).on e with | mk outcome e' =>
    obtain ⟨cache, rfl, -, faults⟩ := peek?_makeRoom room
    cases outcome with
    | error halt => exact .inl (congrArg Except.error (faults halt rfl))
    | ok _ =>
      have same : Engine.readPage { e with cache := cache } p = e.readPage p := rfl
      dsimp only
      rw [same]
      cases e.readPage p <;> exact .inr rfl

/-- No lock changes by a load. -/
theorem locks_load : ((load p).on e).2.locks = e.locks := by
  cases loaded : (load p).on e with | mk outcome e' =>
  cases outcome with
  | error halt => exact (load_error ⟨0⟩ loaded).2.1
  | ok q => exact (load_ok ⟨0⟩ loaded).2.1

/-- A fetch takes the lock, and no other. -/
theorem locks_fetch : ((fetch t p mode).on e).2.locks = (e.locks.request t p mode).2 := by
  unfold fetch
  rw [Turn.on_bind, on_lock]
  cases (e.locks.request t p mode).1 with
  | granted => exact locks_load
  | blocked => rfl
  | deadlock holder => rfl

/-- **What a fetch answers**, unless there is no room: what the lock says, and
then the page that is seen. -/
theorem on_fetch_fst (t : TxnId) (p : PageId) (mode : LockMode) (e : Engine) :
    ((fetch t p mode).on e).1 = .error (.fault .poolFull)
      ∨ ((fetch t p mode).on e).1 = match (e.locks.request t p mode).1 with
        | .granted => (e.pageSeen p).mapError .fault
        | .blocked => .error .wait
        | .deadlock holder => .error (.fault (.deadlock t holder)) := by
  unfold fetch
  rw [Turn.on_bind, on_lock]
  cases (e.locks.request t p mode).1 with
  | granted => exact on_load_fst p { e with locks := (e.locks.request t p mode).2 }
  | blocked => exact .inr rfl
  | deadlock holder => exact .inr rfl

/-- Engines that agree do so after a request for the same lock. -/
theorem Paired.request (paired : Paired e₁ e₂) (t : TxnId) (p : PageId) (mode : LockMode) :
    Paired { e₁ with locks := (e₁.locks.request t p mode).2 }
      { e₂ with locks := (e₂.locks.request t p mode).2 } :=
  paired.looks (looks_request paired.left) (looks_request paired.right)
    (by rw [paired.agree.locks])

/-- **A fetch comes to the same** in engines that agree. -/
theorem Paired.fetch (paired : Paired e₁ e₂) (t : TxnId) (p : PageId) (mode : LockMode) :
    Matched Page.SameRows Paired ((fetch t p mode).on e₁) ((fetch t p mode).on e₂) := by
  have states : Paired ((Engine.fetch t p mode).on e₁).2 ((Engine.fetch t p mode).on e₂).2 :=
    paired.looks (looks_fetch paired.left t p mode) (looks_fetch paired.right t p mode)
      (by rw [locks_fetch, locks_fetch, paired.agree.locks])
  have one := on_fetch_fst t p mode e₁
  have two := on_fetch_fst t p mode e₂
  have seen := paired.pageSeen p
  rw [paired.agree.locks] at two
  generalize (Engine.fetch t p mode).on e₁ = r₁ at states one ⊢
  generalize (Engine.fetch t p mode).on e₂ = r₂ at states two ⊢
  obtain ⟨outcome₁, y₁⟩ := r₁
  obtain ⟨outcome₂, y₂⟩ := r₂
  dsimp only at states one two
  rcases one with rfl | rfl
  · exact .noRoomLeft
  rcases two with rfl | rfl
  · exact .noRoomRight
  cases (e₁.locks.request t p mode).1 with
  | blocked => exact .halts .wait states
  | deadlock holder => exact .halts _ states
  | granted =>
    dsimp only
    generalize e₁.pageSeen p = seen₁ at seen
    generalize e₂.pageSeen p = seen₂ at seen
    cases seen₁ with
    | error cause =>
      cases seen₂ with
      | error cause' =>
        obtain rfl : cause = cause' := seen
        exact .halts _ states
      | ok d₂ => exact seen.elim
    | ok d₁ =>
      cases seen₂ with
      | error cause => exact seen.elim
      | ok d₂ => exact .answers seen states

/-- **A mark** changes nothing but the cache, and fails only for want of
room. -/
theorem on_install (t : TxnId) (q : Page) (e : Engine) :
    (((install t q).on e).1 = .error (.fault .poolFull) ∨ ((install t q).on e).1 = .ok ())
      ∧ ((install t q).on e).2.catalog = e.catalog ∧ ((install t q).on e).2.volume = e.volume
      ∧ ((install t q).on e).2.locks = e.locks := by
  rw [install, Turn.on_bind]
  cases room : (makeRoom q.id).on e with | mk outcome e' =>
  obtain ⟨cache, rfl, -, faults⟩ := peek?_makeRoom room
  cases outcome with
  | error halt => exact ⟨.inl (congrArg Except.error (faults halt rfl)), rfl, rfl, rfl⟩
  | ok _ =>
    dsimp only
    rw [Turn.on_modify]
    refine ⟨.inr rfl, ?_⟩
    unfold place
    split <;> exact ⟨rfl, rfl, rfl⟩

end Engine

end Tablespace
