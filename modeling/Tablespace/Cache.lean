import Tablespace.Ids

/-!
# A cache in order of recency

A cache holds one value for each of some pages, in the order in which they
were last **touched**, the least recent first. Storing a value and getting
one are touches; peeking and asking whether a page is there are not. The
cache knows nothing of a capacity: what to throw out when it is full is for
its owner to say, who finds the candidates in this order.
-/

namespace Tablespace

/-- **Values of pages, the least recently touched first.** -/
structure Cache (α : Type) where
  /-- The pages and their values. -/
  entries : List (PageId × α)
  /-- No page has two values. -/
  nodup : (entries.map (·.1)).Nodup

namespace Cache

variable {α : Type}

/-- The cache without values. -/
def empty : Cache α := ⟨[], List.nodup_nil⟩

instance : Inhabited (Cache α) := ⟨empty⟩

/-- The pages, the least recently touched first. -/
def pages (c : Cache α) : List PageId :=
  c.entries.map (·.1)

/-- The number of values. -/
def size (c : Cache α) : Nat :=
  c.entries.length

/-- **The value of a page**, without touching it. -/
def peek? (c : Cache α) (page : PageId) : Option α :=
  (c.entries.find? (·.1 = page)).map (·.2)

/-- Whether a page has a value. -/
def contains (c : Cache α) (page : PageId) : Bool :=
  c.entries.any (·.1 = page)

/-- **The cache without the value of a page.** -/
def erase (c : Cache α) (page : PageId) : Cache α where
  entries := c.entries.filter (·.1 ≠ page)
  nodup := c.nodup.sublist (List.filter_sublist.map _)

/-- A page whose value was taken out has none. -/
theorem not_mem_pages_erase (c : Cache α) (page : PageId) : page ∉ (c.erase page).pages := by
  simp [pages, erase]

/-- **The cache with a value for a page**, which is now the most recently
touched. -/
def insert (c : Cache α) (page : PageId) (value : α) : Cache α where
  entries := (c.erase page).entries ++ [(page, value)]
  nodup := by
    have h := c.not_mem_pages_erase page
    simp only [List.map_append, List.map_cons, List.map_nil]
    refine List.nodup_append.2 ⟨(c.erase page).nodup, by simp, ?_⟩
    intro p hp q hq hpq
    rw [List.mem_singleton.1 hq] at hpq
    exact h (hpq ▸ hp)

/-- **The value of a page, touched**, and the cache after that. A page
without a value is not there to be touched. -/
def get? (c : Cache α) (page : PageId) : Option (α × Cache α) :=
  (c.peek? page).map fun value => (value, c.insert page value)

/-- The cache with the values of a page replaced, in its place. -/
def modify (c : Cache α) (page : PageId) (f : α → α) : Cache α where
  entries := c.entries.map fun e => if e.1 = page then (e.1, f e.2) else e
  nodup := by
    have : ((c.entries.map fun e => if e.1 = page then (e.1, f e.2) else e).map (·.1))
        = c.entries.map (·.1) := by
      rw [List.map_map]
      refine List.map_congr_left fun e _ => ?_
      simp only [Function.comp_apply]
      split <;> rfl
    rw [this]
    exact c.nodup

/-- The least recently touched page whose value has a property. -/
def oldest? (c : Cache α) (wanted : α → Bool) : Option PageId :=
  (c.entries.find? (wanted ·.2)).map (·.1)

/-- The pages whose values have a property, the least recently touched
first. -/
def pagesWith (c : Cache α) (wanted : α → Bool) : List PageId :=
  (c.entries.filter (wanted ·.2)).map (·.1)

/-! ## One request after another -/

/-- **What a cache is asked for.** -/
inductive Request (α : Type) where
  /-- The value of a page, touched. -/
  | get (page : PageId)
  /-- The value of a page, touched, to be changed in its place. -/
  | update (page : PageId) (change : α → α)
  /-- The value of a page. -/
  | peek (page : PageId)
  /-- Whether a page has a value. -/
  | contains (page : PageId)
  /-- A value is put in. -/
  | insert (page : PageId) (value : α)
  /-- A value is taken out. -/
  | remove (page : PageId)

/-- **What it replies.** -/
inductive Reply (α : Type) where
  | value (value? : Option α)
  | truth (b : Bool)
  deriving DecidableEq

/-- **One request is served.** What is put in or taken out is replied to with
the value that was there before, a change with the value as it is then. -/
def serve (c : Cache α) : Request α → Reply α × Cache α
  | .get page =>
    match c.get? page with
    | some (value, c') => (.value (some value), c')
    | none => (.value none, c)
  | .update page change =>
    match c.get? page with
    | some (value, c') => (.value (some (change value)), c'.modify page change)
    | none => (.value none, c)
  | .peek page => (.value (c.peek? page), c)
  | .contains page => (.truth (c.contains page), c)
  | .insert page value => (.value (c.peek? page), c.insert page value)
  | .remove page => (.value (c.peek? page), c.erase page)

end Cache

end Tablespace
