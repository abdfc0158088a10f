import Mathlib.Logic.Function.Basic
import Tablespace.Proofs.Cache

/-!
# The order of recency is exact

What a cache lists is told by its history alone, page by page. The **record** of a page
(`Cache.latest`) is the time of its last touch and its latest value: it begins when a value is
put in, is renewed by every touch, and ends when the value is taken out. Time is the number of
the requests before.

A cache lists the pages that have a record, each once and with its latest value, the one
touched longest ago first (`Cache.Recent`). So whoever throws out the first page of a kind
throws out the one of that kind that was touched least recently.
-/

namespace Tablespace.Cache

variable {α : Type}

/-! ## Histories -/

/-- **The cache after its history**, the latest request first. -/
def after : List (Request α) → Cache α
  | [] => empty
  | r :: earlier => ((after earlier).serve r).2

namespace Request

/-- The page that is asked for. -/
def page : Request α → PageId
  | get page | update page _ | peek page | contains page | insert page _ | remove page => page

/-- **What becomes of the record of the page** that is asked for, at the time of the
request. -/
def renew (now : Nat) : Request α → Option (Nat × α) → Option (Nat × α)
  | get _, old => old.map fun entry => (now, entry.2)
  | update _ change, old => old.map fun entry => (now, change entry.2)
  | peek _, old | contains _, old => old
  | insert _ value, _ => some (now, value)
  | remove _, _ => none

/-- **What is replied**, by the record of the page: the value that was there before, or as a
change left it. -/
def reply : Request α → Option (Nat × α) → Reply α
  | get _, old | peek _, old | insert _ _, old | remove _, old => .value (old.map (·.2))
  | update _ change, old => .value (old.map fun entry => change entry.2)
  | contains _, old => .truth old.isSome

/-- **Whether a request leaves the cache as it is**: it only looks, or the value it wants to
touch or to take out is not there. -/
def Idle : Request α → Option (Nat × α) → Prop
  | peek _, _ | contains _, _ => True
  | get _, old | update _ _, old | remove _, old => old = none
  | insert _ _, _ => False

end Request

variable {c : Cache α} {page : PageId} {value : α} {now : Nat}
variable {history : List (Request α)} {record : PageId → Option (Nat × α)}

/-- **The record of every page**: the time of its last touch, and its latest value. -/
def latest : List (Request α) → PageId → Option (Nat × α)
  | [] => fun _ => none
  | r :: earlier => Function.update (latest earlier) r.page
      (r.renew earlier.length (latest earlier r.page))

/-- The time of the last touch of a page that has a record. -/
def time (record : PageId → Option (Nat × α)) (page : PageId) : Nat :=
  ((record page).map (·.1)).getD 0

/-- **Touches are in the past.** -/
theorem time_latest_lt {entry : Nat × α} (h : latest history page = some entry) :
    entry.1 < history.length := by
  induction history generalizing page entry with
  | nil => cases h
  | cons r earlier ih =>
    rw [latest, Function.update_apply] at h
    split at h
    · -- the page that is asked for keeps its record, or is touched now
      have renewed : entry.1 = earlier.length ∨ latest earlier r.page = some entry := by
        cases r with
        | get _ | update _ _ =>
          obtain ⟨old, -, rfl⟩ := Option.map_eq_some_iff.1 h
          exact .inl rfl
        | peek _ | contains _ => exact .inr h
        | insert _ _ =>
          cases h
          exact .inl rfl
        | remove _ => cases h
      rcases renewed with now | kept
      · exact now ▸ Nat.lt_succ_self _
      · exact Nat.lt_succ_of_lt (ih kept)
    · exact Nat.lt_succ_of_lt (ih h)

/-! ## The order -/

/-- **A cache lists what the records say**: the pages that have one, with their values, in the
order of their times. -/
structure Lists (record : PageId → Option (Nat × α)) (c : Cache α) : Prop where
  /-- The value of a page is the one of its record. -/
  shows : ∀ page, c.peek? page = (record page).map (·.2)
  /-- Of two pages the one that was touched earlier is listed first. -/
  ordered : c.entries.Pairwise fun a b => time record a.1 < time record b.1

namespace Lists

/-- The records of the pages that are listed after one was taken out are as before. -/
theorem ordered_erase (lists : Lists record c) (new : Option (Nat × α)) :
    (c.erase page).entries.Pairwise fun a b =>
      time (Function.update record page new) a.1 < time (Function.update record page new) b.1 := by
  refine (lists.ordered.sublist List.filter_sublist).imp_of_mem fun {a b} ina inb before => ?_
  have other {entry : PageId × α} (listed : entry ∈ (c.erase page).entries) : entry.1 ≠ page := by
    simpa using (List.mem_filter.1 listed).2
  rwa [time, time, Function.update_of_ne (other ina), Function.update_of_ne (other inb)]

/-- **A page that is taken out** has no record any more. -/
theorem erase (lists : Lists record c) :
    Lists (Function.update record page none) (c.erase page) where
  shows q := by
    rw [peek?_erase, Function.update_apply, lists.shows]
    split <;> rfl
  ordered := lists.ordered_erase none

/-- **A page that is touched** goes behind those that were touched before. -/
theorem insert (lists : Lists record c)
    (past : ∀ {page : PageId} {entry : Nat × α}, record page = some entry → entry.1 < now) :
    Lists (Function.update record page (some (now, value))) (c.insert page value) where
  shows q := by
    rw [peek?_insert, Function.update_apply, lists.shows]
    split <;> rfl
  ordered := by
    rw [entries_insert]
    refine List.pairwise_append.2 ⟨lists.ordered_erase _, List.pairwise_singleton _ _, ?_⟩
    intro a listed b new
    obtain rfl := List.mem_singleton.1 new
    obtain ⟨listed, other⟩ := List.mem_filter.1 listed
    have known : (record a.1).map (·.2) = some a.2 := by
      rw [← lists.shows, peek?_eq_some_iff]
      exact listed
    obtain ⟨entry, found, -⟩ := Option.map_eq_some_iff.1 known
    rw [time, time, Function.update_of_ne (by simpa using other), Function.update_self, found]
    exact past found

end Lists

/-! ## Serving requests -/

/-- Caches that list the same are the same. -/
theorem eq_of_entries {c' : Cache α} (h : c.entries = c'.entries) : c = c' := by
  obtain ⟨_, _⟩ := c
  obtain rfl := h
  rfl

/-- A value that is changed where it was just put could have been put there changed. -/
theorem modify_insert (f : α → α) :
    (c.insert page value).modify page f = c.insert page (f value) := by
  have others : ∀ e ∈ (c.erase page).entries, (if e.1 = page then (e.1, f e.2) else e) = e := by
    intro e listed
    exact if_neg (by simpa using (List.mem_filter.1 listed).2)
  refine eq_of_entries ?_
  simp only [modify, insert, List.map_append, List.map_congr_left others, List.map_id',
    List.map_cons, List.map_nil, if_true]

/-- **Changing a value that is there** puts the page at the end with the changed value. -/
theorem serve_update (f : α → α) : c.serve (.update page f)
    = (.value ((c.peek? page).map f), ((c.peek? page).map (c.insert page <| f ·)).getD c) := by
  simp only [serve, get?]
  cases c.peek? page with
  | none => rfl
  | some value => simp only [Option.map_some, Option.getD_some, modify_insert]

/-- Getting a value is changing nothing in it. -/
theorem serve_get : c.serve (.get page) = c.serve (.update page id) := by
  rw [serve_update]
  simp only [serve, get?]
  cases c.peek? page <;> rfl

/-- **Every request renews the record of its page**, and no other. -/
theorem Lists.serve (lists : Lists record c)
    (past : ∀ {page : PageId} {entry : Nat × α}, record page = some entry → entry.1 < now)
    (r : Request α) :
    Lists (Function.update record r.page (r.renew now (record r.page))) (c.serve r).2 := by
  have touch (page : PageId) (f : α → α) :
      Lists (Function.update record page ((record page).map fun entry => (now, f entry.2)))
        (c.serve (.update page f)).2 := by
    rw [serve_update, lists.shows]
    cases found : record page with
    | none =>
      rw [Option.map_none, Function.update_eq_self_iff.2 found.symm]
      exact lists
    | some entry => exact lists.insert past
  cases r with
  | get page =>
    rw [serve_get]
    exact touch page id
  | update page f => exact touch page f
  | peek _ | contains _ =>
    simp only [Request.renew, Function.update_eq_self]
    exact lists
  | insert _ _ => exact lists.insert past
  | remove _ => exact lists.erase

/-- **What a cache replies** is told by the record of the page. -/
theorem Lists.reply (lists : Lists record c) (r : Request α) :
    (c.serve r).1 = r.reply (record r.page) := by
  have change (page : PageId) (f : α → α) : (c.serve (.update page f)).1
      = .value ((record page).map fun entry => f entry.2) := by
    rw [serve_update, lists.shows, Option.map_map]
    rfl
  cases r with
  | get page =>
    rw [serve_get]
    exact change page id
  | update page f => exact change page f
  | peek page | insert page _ | remove page => exact congrArg Reply.value (lists.shows page)
  | contains page =>
    show Reply.truth (c.contains page) = .truth (record page).isSome
    rw [contains_eq_isSome, lists.shows, Option.isSome_map]

/-- **An idle request leaves the cache as it is.** -/
theorem Lists.serve_idle (lists : Lists record c) {r : Request α} (idle : r.Idle (record r.page)) :
    (c.serve r).2 = c := by
  have missing (page : PageId) (absent : record page = none) : c.peek? page = none := by
    rw [lists.shows, absent, Option.map_none]
  cases r with
  | peek _ | contains _ => rfl
  | get page =>
    rw [serve_get, serve_update, missing page idle]
    rfl
  | update page f =>
    rw [serve_update, missing page idle]
    rfl
  | remove page => exact erase_of_absent (missing page idle)
  | insert _ _ => exact idle.elim

/-- **After every history a cache lists what was recorded.** -/
theorem lists_latest (history : List (Request α)) : Lists (latest history) (after history) := by
  induction history with
  | nil => exact ⟨fun _ => rfl, List.Pairwise.nil⟩
  | cons r earlier ih => exact ih.serve time_latest_lt r

/-- **A listing in the exact order of recency** after a history. -/
structure Recent (history : List (Request α)) (entries : List (PageId × α)) : Prop where
  /-- No page is listed twice. -/
  once : (entries.map (·.1)).Nodup
  /-- The pages that are listed are those that have a record, with their latest values. -/
  listed : ∀ page value,
    (page, value) ∈ entries ↔ ∃ time, latest history page = some (time, value)
  /-- Of two pages the one whose last touch was earlier is listed first. -/
  ordered : entries.Pairwise fun a b => time (latest history) a.1 < time (latest history) b.1

/-- **A cache lists its pages in the exact order of recency.** -/
theorem recent_after (history : List (Request α)) : Recent history (after history).entries where
  once := (after history).nodup
  listed page value := by
    rw [← peek?_eq_some_iff, (lists_latest history).shows, Option.map_eq_some_iff, Prod.exists]
    simp only [exists_eq_right]
  ordered := (lists_latest history).ordered

end Tablespace.Cache
