import Tablespace.Proofs.Cache.Recency

/-!
# Caches on linked maps

A cache need not keep its order itself. It can be kept in any map that lists its entries in the
order in which they came (`LinkedMap`): a page that is touched is moved to the end, and one that
gets a new value is taken out before it is put in again, since the map is not asked what becomes
of the place of a page that is put in twice.

What such a map has to do (`LinkedMap.Lawful`) is said of single calls. That is enough for the
listing to be in the exact order of recency after any requests (`LinkedMap.Lawful.recent`).
-/

namespace Tablespace

open Cache (Request Reply)

/-- **The calls of a map** of pages to values that lists its entries in the order in which they
came. -/
structure LinkedMap (μ α : Type) where
  /-- The map without entries. -/
  empty : μ
  /-- The entries in their order. -/
  entries : μ → List (PageId × α)
  /-- How many there are. -/
  length : μ → Nat
  /-- Whether a page has an entry. -/
  contains : μ → PageId → Bool
  /-- The value of a page. -/
  find : μ → PageId → Option α
  /-- The value of a page, for which it is moved to the end and its value changed. -/
  refresh : μ → PageId → (α → α) → Option α × μ
  /-- A page is put in with a value. -/
  push : μ → PageId → α → μ
  /-- A page is taken out. Its value is returned. -/
  unlink : μ → PageId → Option α × μ

namespace LinkedMap

variable {μ α : Type} {L : LinkedMap μ α} {m : μ}

/-- **One request is served** by a cache that is kept in a map. -/
def serve (L : LinkedMap μ α) (m : μ) : Request α → Reply α × μ
  | .get page =>
    let (found, m') := L.refresh m page id
    (.value found, m')
  | .update page change =>
    let (found, m') := L.refresh m page change
    (.value found, m')
  | .peek page => (.value (L.find m page), m)
  | .contains page => (.truth (L.contains m page), m)
  | .insert page value =>
    let (previous, m') := L.unlink m page
    (.value previous, L.push m' page value)
  | .remove page =>
    let (previous, m') := L.unlink m page
    (.value previous, m')

/-- **The map after a history**, the latest request first. -/
def after (L : LinkedMap μ α) : List (Request α) → μ
  | [] => L.empty
  | r :: earlier => (L.serve (L.after earlier) r).2

/-- **What the calls do.** Of putting in a page this is only said for one that is not there. -/
structure Lawful (L : LinkedMap μ α) : Prop where
  /-- A new map has no entries. -/
  entries_empty : L.entries L.empty = []
  /-- No page has two entries. -/
  nodup : ∀ m, ((L.entries m).map (·.1)).Nodup
  /-- The length is the number of the entries. -/
  length_eq : ∀ m, L.length m = (L.entries m).length
  /-- A page is there if it has an entry. -/
  contains_iff : ∀ m page, L.contains m page = true ↔ ∃ value, (page, value) ∈ L.entries m
  /-- What is found is the value of the entry. -/
  find_iff : ∀ m page value, L.find m page = some value ↔ (page, value) ∈ L.entries m
  /-- What is refreshed is what is found, changed. -/
  refresh_found : ∀ m page change, (L.refresh m page change).1 = (L.find m page).map change
  /-- A page that is there is moved to the end. -/
  refresh_present : ∀ m page value change, (page, value) ∈ L.entries m →
    L.entries (L.refresh m page change).2
      = (L.entries m).filter (·.1 ≠ page) ++ [(page, change value)]
  /-- If it is not there, no entry is moved. -/
  refresh_absent : ∀ m page change, L.find m page = none →
    L.entries (L.refresh m page change).2 = L.entries m
  /-- A new page comes to the end. -/
  push_absent : ∀ m page value, L.find m page = none →
    L.entries (L.push m page value) = L.entries m ++ [(page, value)]
  /-- What is taken out is what is found. -/
  unlink_found : ∀ m page, (L.unlink m page).1 = L.find m page
  /-- The others stay in their order. -/
  unlink_entries : ∀ m page, L.entries (L.unlink m page).2 = (L.entries m).filter (·.1 ≠ page)

namespace Lawful

variable (lawful : L.Lawful)

/-- The cache that lists what a map lists. -/
def cache (m : μ) : Cache α :=
  ⟨L.entries m, lawful.nodup m⟩

include lawful in
theorem find_eq_peek? (m : μ) (page : PageId) : L.find m page = (lawful.cache m).peek? page := by
  refine Option.ext fun value => ?_
  rw [lawful.find_iff, Cache.peek?_eq_some_iff]
  rfl

/-- Refreshing a page is changing its value in the cache. -/
theorem refresh_eq (m : μ) (page : PageId) (f : α → α) :
    (L.refresh m page f).1 = ((lawful.cache m).peek? page).map f
      ∧ lawful.cache (L.refresh m page f).2
        = (((lawful.cache m).peek? page).map ((lawful.cache m).insert page <| f ·)).getD
            (lawful.cache m) := by
  have found := lawful.find_eq_peek? m page
  refine ⟨by rw [lawful.refresh_found, found], Cache.eq_of_entries ?_⟩
  cases h : (lawful.cache m).peek? page with
  | none => exact lawful.refresh_absent m page f (found.trans h)
  | some value => exact lawful.refresh_present m page value f (Cache.peek?_eq_some_iff.1 h)

/-- **A map serves a request as the cache does** that lists the same. -/
theorem serve_eq (m : μ) (r : Request α) :
    (L.serve m r).1 = ((lawful.cache m).serve r).1
      ∧ lawful.cache (L.serve m r).2 = ((lawful.cache m).serve r).2 := by
  have erased (page : PageId) :
      lawful.cache (L.unlink m page).2 = (lawful.cache m).erase page :=
    Cache.eq_of_entries (lawful.unlink_entries m page)
  have previous (page : PageId) : (L.unlink m page).1 = (lawful.cache m).peek? page := by
    rw [lawful.unlink_found, lawful.find_eq_peek?]
  cases r with
  | get page =>
    obtain ⟨found, rest⟩ := lawful.refresh_eq m page id
    rw [Cache.serve_get, Cache.serve_update]
    exact ⟨congrArg Reply.value found, rest⟩
  | update page f =>
    obtain ⟨found, rest⟩ := lawful.refresh_eq m page f
    rw [Cache.serve_update]
    exact ⟨congrArg Reply.value found, rest⟩
  | peek page => exact ⟨congrArg Reply.value (lawful.find_eq_peek? m page), rfl⟩
  | contains page =>
    refine ⟨congrArg Reply.truth ?_, rfl⟩
    rw [Bool.eq_iff_iff, lawful.contains_iff, Cache.contains, List.any_eq_true]
    simp [cache]
  | insert page value =>
    refine ⟨congrArg Reply.value (previous page), Cache.eq_of_entries ?_⟩
    have absent : L.find (L.unlink m page).2 page = none := by
      rw [lawful.find_eq_peek?, erased, Cache.peek?_erase, if_pos rfl]
    show L.entries (L.push (L.unlink m page).2 page value) = _
    rw [lawful.push_absent _ _ _ absent, lawful.unlink_entries]
    rfl
  | remove page => exact ⟨congrArg Reply.value (previous page), erased page⟩

/-- **After every history** a map lists what the cache lists. -/
theorem cache_after (history : List (Request α)) :
    lawful.cache (L.after history) = Cache.after history := by
  induction history with
  | nil => exact Cache.eq_of_entries lawful.entries_empty
  | cons r earlier ih =>
    show lawful.cache (L.serve (L.after earlier) r).2 = ((Cache.after earlier).serve r).2
    rw [(lawful.serve_eq _ r).2, ih]

/-- **The order of recency is exact**, whatever the requests were. A map that keeps its entries
in the order in which they came, and to whose end the pages are moved that are touched, lists
every page that has a value, once, with its latest value, the one touched longest ago first.
Its length and its pages are those of this list. What it replies is the value that the page had,
or as a change left it, and requests that only look, or find nothing to touch or to take out,
change nothing. -/
theorem recent (lawful : L.Lawful) (history : List (Request α)) :
    Cache.Recent history (L.entries (L.after history))
      ∧ L.length (L.after history) = (L.entries (L.after history)).length
      ∧ (∀ page, L.contains (L.after history) page = true
        ↔ ∃ value, (page, value) ∈ L.entries (L.after history))
      ∧ ∀ r : Request α,
        (L.serve (L.after history) r).1 = r.reply (Cache.latest history r.page)
          ∧ (r.Idle (Cache.latest history r.page) →
            L.entries (L.serve (L.after history) r).2 = L.entries (L.after history)) := by
  have same := lawful.cache_after history
  have entries : L.entries (L.after history) = (Cache.after history).entries :=
    congrArg Cache.entries same
  have lists := Cache.lists_latest history
  refine ⟨entries ▸ Cache.recent_after history, lawful.length_eq _, lawful.contains_iff _,
    fun r => ?_⟩
  obtain ⟨replied, left⟩ := lawful.serve_eq (L.after history) r
  rw [same] at replied left
  refine ⟨replied.trans (lists.reply r), fun idle => ?_⟩
  rw [lists.serve_idle idle] at left
  exact (congrArg Cache.entries left).trans entries.symm

end Lawful

end LinkedMap

/-! ## A cache is a linked map -/

namespace Cache

variable {α : Type}

/-- **A cache** that keeps its order itself, seen as a map. -/
def linked (α : Type) : LinkedMap (Cache α) α where
  empty := empty
  entries := entries
  length := size
  contains := contains
  find := peek?
  refresh c page change :=
    match c.get? page with
    | some (value, c') => (some (change value), c'.modify page change)
    | none => (none, c)
  push := insert
  unlink c page := (c.peek? page, c.erase page)

/-- What a cache does with a page that is refreshed. -/
theorem linked_refresh (c : Cache α) (page : PageId) (f : α → α) :
    (linked α).refresh c page f
      = ((c.peek? page).map f, ((c.peek? page).map (c.insert page <| f ·)).getD c) := by
  simp only [linked, get?]
  cases c.peek? page with
  | none => rfl
  | some value => simp only [Option.map_some, Option.getD_some, modify_insert]

theorem linked_lawful (α : Type) : (linked α).Lawful where
  entries_empty := rfl
  nodup c := c.nodup
  length_eq _ := rfl
  contains_iff c page := by
    show c.contains page = true ↔ ∃ value, (page, value) ∈ c.entries
    rw [contains_eq_isSome, Option.isSome_iff_exists]
    simp only [peek?_eq_some_iff]
  find_iff _ _ _ := peek?_eq_some_iff
  refresh_found c page f := by rw [linked_refresh]; rfl
  refresh_present c page value f there := by
    rw [linked_refresh, peek?_eq_some_iff.2 there]
    rfl
  refresh_absent c page f absent := by
    have absent : c.peek? page = none := absent
    rw [linked_refresh, absent]
    rfl
  push_absent c page value absent := by
    show (c.insert page value).entries = _
    rw [entries_insert, erase_of_absent absent]
    rfl
  unlink_found _ _ := rfl
  unlink_entries _ _ := rfl

end Cache

/-- Page `0` is put in again and page `1` is touched and changed, so page `2` is the oldest. Page
`3` was taken out. -/
theorem LinkedMap.Lawful.recent_reordered :
    let history : List (Request Nat) :=
      [.remove ⟨⟨1⟩, 3⟩, .insert ⟨⟨1⟩, 0⟩ 10, .update ⟨⟨1⟩, 1⟩ (· + 5), .peek ⟨⟨1⟩, 2⟩,
        .insert ⟨⟨1⟩, 3⟩ 3, .insert ⟨⟨1⟩, 2⟩ 2, .insert ⟨⟨1⟩, 1⟩ 1, .insert ⟨⟨1⟩, 0⟩ 0]
    let m := (Cache.linked Nat).after history
    (Cache.linked Nat).Lawful
      ∧ (Cache.linked Nat).entries m = [(⟨⟨1⟩, 2⟩, 2), (⟨⟨1⟩, 1⟩, 6), (⟨⟨1⟩, 0⟩, 10)]
      ∧ Cache.Recent history ((Cache.linked Nat).entries m)
      ∧ ((Cache.linked Nat).serve m (.insert ⟨⟨1⟩, 1⟩ 0)).1 = .value (some 6)
      ∧ (Cache.linked Nat).entries ((Cache.linked Nat).serve m (.get ⟨⟨1⟩, 3⟩)).2
        = (Cache.linked Nat).entries m := by
  intro history m
  have lawful := Cache.linked_lawful Nat
  have missing : Cache.latest history ⟨⟨1⟩, 3⟩ = none := by decide
  obtain ⟨recent, -, -, served⟩ := LinkedMap.Lawful.recent lawful history
  exact ⟨lawful, by decide, recent, (served (.insert ⟨⟨1⟩, 1⟩ 0)).1.trans (by decide),
    (served (.get ⟨⟨1⟩, 3⟩)).2 missing⟩

end Tablespace
