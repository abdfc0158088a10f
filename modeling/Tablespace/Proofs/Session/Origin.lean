import Tablespace.Proofs.Session.Carried

/-!
# Where pages are from

Tables can be registered and forgotten while their pages are in the cache, and then the
catalog may name another file for a table than the one that its pages were read from. To
tell where the pages are from, the states of a pool are followed by a map from pages to
files (`Tracked`), which nothing that is done depends on: a page that stays in the cache,
which its load tells, is from where it was; and a page that comes into the cache is from
the file that the catalog names at that time.

In every state that is come to (`Tracked.run_sourced`), also by changes of pages in hand and
of files past the pool, a page in the cache is a state of a page of its file. A page that is
fetched is one of the file that the catalog names, and what is written back goes to the file
that it is from, except where a page is **stale** (`Tracked.Stale`): it is in the cache, and
the catalog does not name its file. A page becomes stale in one way only. The catalog was
changed for its table while the page was in the cache, and it has been there since.
-/

namespace Tablespace

/-- **A pool, and the files that its pages are from.** -/
structure Tracked where
  engine : Engine
  origin : PageId → HeapFile

namespace Tracked

variable {s : Tracked} {deed : Deed} {deeds : List Deed} {p : PageId}

/-- **Something is done to the pool.** A page that was loaded meanwhile is from the file that
the catalog names. -/
def perform (s : Tracked) (deed : Deed) : Tracked where
  engine := s.engine.perform deed
  origin p :=
    if ((s.engine.perform deed).frame? p).map (·.load) = (s.engine.frame? p).map (·.load) then
      s.origin p
    else
      match s.engine.catalog.file p.table with
      | .ok f => f
      | .error _ => s.origin p

/-- **One thing is done after the other.** -/
def run (s : Tracked) (deeds : List Deed) : Tracked :=
  deeds.foldl perform s

/-- **A stale page**: it is in the cache, and the catalog does not name its file. -/
def Stale (s : Tracked) (p : PageId) : Prop :=
  (∃ frame, s.engine.frame? p = some frame) ∧ s.engine.catalog.file p.table ≠ .ok (s.origin p)

/-- **The file of a table is replaced**, or forgotten, while a page of it is in the cache by
a given load. -/
structure Replaces (s : Tracked) (deed : Deed) (p : PageId) (load : Nat) : Prop where
  registers : deed.Registers
  cached : ∃ frame, s.engine.frame? p = some frame ∧ frame.load = load
  changed : (s.engine.perform deed).catalog.file p.table ≠ s.engine.catalog.file p.table

/-- **What is known of pages by their files.** -/
structure Sourced (s : Tracked) : Prop where
  /-- A page in the cache is a state of a page of its file. -/
  cached : ∀ p frame, s.engine.frame? p = some frame →
    (s.origin p).Fits s.engine.volume p frame.page
  /-- A page that is fetched is a state of a page of its file, which is the one that the
  catalog names unless the page is stale. If it was not in the cache, it is what the file
  holds. -/
  fetched : ∀ t p mode q, ((Engine.fetch t p mode).on s.engine).1 = .ok q →
    ∃ f, (s.perform (.fetch t p mode)).origin p = f ∧ f.Fits s.engine.volume p q
      ∧ (¬s.Stale p → s.engine.catalog.file p.table = .ok f)
      ∧ (s.engine.frame? p = none → f.readPage s.engine.volume p = .ok q)
  /-- Pages are written back up to the first that cannot be, each to the file that the
  catalog names. That is its file unless the page is stale. -/
  written : ∀ deed pages, deed.flushes s.engine = some pages → ∃ done left, pages = done ++ left
    ∧ (s.engine.perform deed).volume = s.engine.written done
    ∧ ∀ p ∈ done, ∃ f, s.engine.catalog.file p.table = .ok f ∧ (¬s.Stale p → f = s.origin p)
  /-- A commit that succeeds writes all pages that the transaction has changed. -/
  committed : ∀ t, ((Engine.commit t).on s.engine).1 = .ok () →
    ((Engine.commit t).on s.engine).2.volume = s.engine.written (s.engine.dirtied t)
      ∧ ∀ p, s.engine.DirtyFor t p → ∃ f, s.engine.catalog.file p.table = .ok f
        ∧ (¬s.Stale p → f = s.origin p)

/-- **What carries it**: the pool is in order, and its pages are states of pages of their
files. -/
structure Sound (s : Tracked) : Prop where
  orderly : s.engine.Orderly
  cached : ∀ p frame, s.engine.frame? p = some frame →
    (s.origin p).Fits s.engine.volume p frame.page

/-- A page that stays in the cache is from where it was. -/
theorem origin_of_stays
    (stays : ((s.engine.perform deed).frame? p).map (·.load) = (s.engine.frame? p).map (·.load)) :
    (s.perform deed).origin p = s.origin p :=
  if_pos stays

/-- A page that comes into the cache is from the file that the catalog names. -/
theorem origin_of_comes {f : HeapFile} (file : s.engine.catalog.file p.table = .ok f)
    (comes : ((s.engine.perform deed).frame? p).map (·.load) ≠ (s.engine.frame? p).map (·.load)) :
    (s.perform deed).origin p = f := by
  have named : (s.perform deed).origin p
      = match s.engine.catalog.file p.table with | .ok f => f | .error _ => s.origin p :=
    if_neg comes
  rw [named, file]

/-- A page that is not stale is of the file that the catalog names. -/
theorem file_of_not_stale (fresh : ¬s.Stale p) {frame : Frame}
    (there : s.engine.frame? p = some frame) :
    s.engine.catalog.file p.table = .ok (s.origin p) := by
  by_contra other
  exact fresh ⟨⟨frame, there⟩, other⟩

/-- **What becomes of a page in the cache** by a deed that leaves the catalog alone: it is
from where it was, or it was loaded from the file that the catalog names. -/
theorem origin_perform (orderly : s.engine.Orderly)
    (carried : s.engine.Carried (s.perform deed).engine) {frame' : Frame}
    (there : (s.perform deed).engine.frame? p = some frame') :
    (∃ frame, s.engine.frame? p = some frame ∧ frame.load = frame'.load
        ∧ frame.page.Alike frame'.page ∧ (s.perform deed).origin p = s.origin p)
      ∨ ∃ f, s.engine.catalog.file p.table = .ok f ∧ (s.perform deed).origin p = f
        ∧ f.Fits (s.perform deed).engine.volume p frame'.page := by
  have now : (s.engine.perform deed).frame? p = some frame' := there
  rcases carried.pages p frame' there with ⟨frame, before, same, alike⟩ | ⟨later, f, file, fits⟩
  · refine .inl ⟨frame, before, same, alike, ?_⟩
    exact origin_of_stays (by rw [now, before, Option.map_some, Option.map_some, same])
  · refine .inr ⟨f, file, origin_of_comes file fun same => ?_, fits⟩
    rw [now, Option.map_some] at same
    obtain ⟨frame, before, load⟩ := Option.map_eq_some_iff.1 same.symm
    exact absurd (load ▸ orderly.numbered p frame before) (Nat.not_lt.2 later)

/-- A deed that changes the catalog leaves the pages in the cache alone. -/
theorem perform_of_registers (registers : deed.Registers) :
    ∃ catalog, (s.perform deed).engine = { s.engine with catalog := catalog }
      ∧ (s.perform deed).origin = s.origin := by
  obtain ⟨catalog, is⟩ := Engine.perform_of_registers registers (e := s.engine)
  refine ⟨catalog, is, funext fun p => origin_of_stays ?_⟩
  rw [is]
  rfl

/-- **Whatever is done, it holds.** -/
theorem Sound.perform (sound : s.Sound) (ours : ¬deed.Stores) : (s.perform deed).Sound := by
  by_cases registers : deed.Registers
  · obtain ⟨catalog, is, same⟩ := perform_of_registers registers (s := s)
    refine ⟨?_, ?_⟩
    · rw [is]
      exact ⟨sound.orderly.locks, sound.orderly.named, sound.orderly.numbered⟩
    · rw [is, same]
      exact sound.cached
  · have carried := sound.orderly.carried registers ours
    refine ⟨carried.orderly, fun p frame' there => ?_⟩
    rcases origin_perform sound.orderly carried there with
      ⟨frame, before, -, alike, same⟩ | ⟨f, -, new, fits⟩
    · rw [same]
      exact ((sound.cached p frame before).alike alike).mono
        (HeapFile.pages_le_of_grows carried.grows)
    · rw [new]
      exact fits

theorem Sound.run (sound : s.Sound) (ours : ∀ deed ∈ deeds, ¬deed.Stores) :
    (s.run deeds).Sound := by
  induction deeds generalizing s with
  | nil => exact sound
  | cons deed deeds ih =>
    exact ih (sound.perform (ours deed List.mem_cons_self)) fun d hd =>
      ours d (List.mem_cons_of_mem _ hd)

/-- **A page becomes stale** by a change of the catalog while it is in the cache. -/
theorem Sound.stale (sound : s.Sound) (ours : ¬deed.Stores) (stale : (s.perform deed).Stale p)
    {frame' : Frame} (there : (s.perform deed).engine.frame? p = some frame') :
    (s.Stale p ∧ ∃ frame, s.engine.frame? p = some frame ∧ frame.load = frame'.load)
      ∨ s.Replaces deed p frame'.load := by
  by_cases registers : deed.Registers
  · obtain ⟨catalog, is, same⟩ := perform_of_registers registers (s := s)
    have before : s.engine.frame? p = some frame' := by
      rw [is] at there
      exact there
    by_cases old : s.Stale p
    · exact .inl ⟨old, frame', before, rfl⟩
    · refine .inr ⟨registers, ⟨frame', before, rfl⟩, fun unchanged => stale.2 ?_⟩
      rw [same]
      exact unchanged.trans (file_of_not_stale old before)
  · have carried := sound.orderly.carried registers ours
    have catalog : (s.perform deed).engine.catalog = s.engine.catalog := carried.catalog
    rcases origin_perform sound.orderly carried there with
      ⟨frame, before, load, -, same⟩ | ⟨f, file, new, -⟩
    · refine .inl ⟨⟨⟨frame, before⟩, fun file => stale.2 ?_⟩, frame, before, load⟩
      rw [same, catalog]
      exact file
    · exact absurd (by rw [new, catalog]; exact file) stale.2

/-- **A page that is stale after a run** was so before, or the file of its table was replaced
while it was in the cache, and it has been there since. -/
theorem Sound.run_stale (sound : s.Sound) (ours : ∀ deed ∈ deeds, ¬deed.Stores)
    (stale : (s.run deeds).Stale p) {frame' : Frame}
    (there : (s.run deeds).engine.frame? p = some frame') :
    (s.Stale p ∧ ∃ frame, s.engine.frame? p = some frame ∧ frame.load = frame'.load)
      ∨ ∃ before deed after, deeds = before ++ deed :: after
        ∧ (s.run before).Replaces deed p frame'.load := by
  induction deeds generalizing s with
  | nil => exact .inl ⟨stale, frame', there, rfl⟩
  | cons deed deeds ih =>
    have first := ours deed List.mem_cons_self
    have rest : ∀ d ∈ deeds, ¬d.Stores := fun d hd => ours d (List.mem_cons_of_mem _ hd)
    rcases ih (sound.perform first) rest stale there with
      ⟨stale, frame, here, load⟩ | ⟨before, d, after, rfl, replaces⟩
    · rcases sound.stale first stale here with ⟨old, h⟩ | replaces
      · exact .inl ⟨old, load ▸ h⟩
      · exact .inr ⟨[], deed, deeds, rfl, load ▸ replaces⟩
    · exact .inr ⟨deed :: before, d, after, rfl, replaces⟩

/-- **What carries it says where the pages are from.** -/
theorem Sound.sourced (sound : s.Sound) : s.Sourced where
  cached := sound.cached
  fetched t p mode q answered := by
    obtain ⟨fetches, volume⟩ := Engine.fetches_fetch t p mode s.engine
    cases ran : (Engine.fetch t p mode).on s.engine with | mk outcome e' =>
    rw [ran] at answered fetches volume
    cases answered
    obtain ⟨-, seen, ⟨frame', there, is⟩, -⟩ := fetches
    have after : (s.perform (.fetch t p mode)).engine = e' := congrArg Prod.snd ran
    have still : ¬(Deed.fetch t p mode).Registers := id
    have ours : ¬(Deed.fetch t p mode).Stores := id
    have carried : s.engine.Carried (s.perform (.fetch t p mode)).engine :=
      sound.orderly.carried still ours
    rcases origin_perform sound.orderly carried (after.symm ▸ there) with
      ⟨frame, before, -, -, same⟩ | ⟨f, file, new, fits⟩
    · obtain rfl : frame.page = q :=
        Except.ok.inj ((Engine.pageSeen_of_frame before).symm.trans seen)
      refine ⟨_, same, sound.cached p frame before, fun fresh => file_of_not_stale fresh before,
        fun absent => ?_⟩
      rw [absent] at before
      cases before
    · rw [after, volume, is] at fits
      refine ⟨f, new, fits, fun _ => file, fun absent => ?_⟩
      rw [Engine.pageSeen_of_absent absent, Engine.readPage_of_file file] at seen
      exact seen
  written deed pages flushes := by
    obtain ⟨there, done, left, rfl, volume, files⟩ :=
      Engine.writes_of_flushes sound.orderly flushes
    refine ⟨done, left, rfl, volume, fun p hp => ?_⟩
    obtain ⟨f, file⟩ := files p hp
    obtain ⟨frame, there⟩ := there p (List.mem_append_left left hp)
    exact ⟨f, file, fun fresh => Except.ok.inj (file.symm.trans (file_of_not_stale fresh there))⟩
  committed t succeeded := by
    obtain ⟨done, left, all, none, volume, files⟩ := Engine.written_commit sound.orderly t
    rw [none succeeded, List.append_nil] at all
    subst all
    refine ⟨volume, fun p dirty => ?_⟩
    obtain ⟨f, file⟩ := files p (Engine.mem_dirtied.2 dirty)
    obtain ⟨frame, there, -⟩ := dirty
    exact ⟨f, file, fun fresh => Except.ok.inj (file.symm.trans (file_of_not_stale fresh there))⟩

/-- **Pages stay with their file**, whatever is done, unless the catalog is changed for their
table while they are in the cache. -/
theorem run_sourced {config : Config} {volume : Volume} {catalog : Catalog} {e : Engine}
    (started : Engine.start config volume catalog = .ok e) (origin : PageId → HeapFile)
    (ours : ∀ deed ∈ deeds, ¬deed.Stores) :
    (run ⟨e, origin⟩ deeds).Sourced
      ∧ ∀ p frame, (run ⟨e, origin⟩ deeds).Stale p →
        (run ⟨e, origin⟩ deeds).engine.frame? p = some frame →
          ∃ before deed after, deeds = before ++ deed :: after
            ∧ (run ⟨e, origin⟩ before).Replaces deed p frame.load := by
  have absent (p : PageId) : e.frame? p = none := by
    rw [Engine.eq_of_start started]
    rfl
  have sound : Sound ⟨e, origin⟩ :=
    { orderly := Engine.orderly_of_start started
      cached := fun p frame there => by
        rw [absent p] at there
        cases there }
  refine ⟨(sound.run ours).sourced, fun p frame stale there => ?_⟩
  rcases sound.run_stale ours stale there with ⟨⟨⟨old, here⟩, -⟩, -⟩ | replaced
  · rw [absent p] at here
    cases here
  · exact replaced

/-- A transaction puts a row into a page, and then another file is registered for the table
under its name. -/
def replacing : List Deed :=
  [.insert ⟨1⟩ .numbers (.number 8 none) true (.scanning 0 0),
    .register { HeapFile.numbers with path := ["others"] } "numbers"]

/-- The page is stale then, and it was in the cache when the file was replaced. A commit
writes it into the other file, and nothing into its own. -/
theorem run_sourced_replacing :
    ((run ⟨.pair, fun _ => .others⟩ replacing).Sourced
        ∧ ∃ before deed after, replacing = before ++ deed :: after
          ∧ (run ⟨.pair, fun _ => .others⟩ before).Replaces deed ⟨⟨1⟩, 0⟩ 0)
      ∧ (run ⟨.pair, fun _ => .others⟩ replacing).origin ⟨⟨1⟩, 0⟩ = .numbers
      ∧ ((run ⟨.pair, fun _ => .others⟩ replacing).engine.perform
          (.complete ⟨1⟩ true)).volume.files.map (fun file => (file.1, file.2.toList))
        = [(["numbers"], List.replicate 9 0), (["others"], [1, 8, 0, 0, 0, 0, 0, 0, 0])] := by
  have ours : ∀ deed ∈ replacing, ¬deed.Stores := by
    intro deed there
    rcases List.mem_cons.1 there with rfl | there
    · exact id
    · rw [List.mem_singleton.1 there]
      exact id
  have started : Engine.start ⟨9, 2, 1⟩ Engine.pair.volume .pair = .ok .pair := rfl
  obtain ⟨sourced, replaced⟩ := run_sourced started (fun _ => .others) ours
  have origin : (run ⟨.pair, fun _ => .others⟩ replacing).origin ⟨⟨1⟩, 0⟩ = .numbers := by
    decide +kernel
  have cached : ∃ frame, (run ⟨.pair, fun _ => .others⟩ replacing).engine.frame? ⟨⟨1⟩, 0⟩
      = some frame ∧ frame.load = 0 := ⟨_, rfl, rfl⟩
  obtain ⟨frame, there, load⟩ := cached
  have stale : (run ⟨.pair, fun _ => .others⟩ replacing).Stale ⟨⟨1⟩, 0⟩ := by
    refine ⟨⟨frame, there⟩, ?_⟩
    rw [origin]
    exact fun same => absurd (congrArg HeapFile.path (Except.ok.inj same)) (by decide)
  exact ⟨⟨sourced, load ▸ replaced _ frame stale there⟩, origin, by decide +kernel⟩

end Tracked

end Tablespace
