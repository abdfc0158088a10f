import Mathlib.Data.List.Nodup
import Tablespace.Cache

/-!
# What a cache holds

A cache is a map from pages to values (`Cache.peek?`), together with an
order. This module says what every operation does to the map; the order is
left to the operations.
-/

namespace Tablespace.Cache

variable {α : Type} {c : Cache α} {page q : PageId} {value : α}

/-- A value that is reported is that of an entry. -/
theorem mem_of_peek? (h : c.peek? page = some value) : (page, value) ∈ c.entries := by
  obtain ⟨entry, found, rfl⟩ := Option.map_eq_some_iff.1 h
  have name : entry.1 = page := by simpa using List.find?_some found
  obtain rfl := name
  exact List.mem_of_find?_eq_some found

/-- A page without a value has no entry. -/
theorem peek?_eq_none_iff : c.peek? page = none ↔ ∀ entry ∈ c.entries, entry.1 ≠ page := by
  simp [peek?]

/-- **The map shows every entry.** -/
theorem peek?_eq_some_iff : c.peek? page = some value ↔ (page, value) ∈ c.entries := by
  refine ⟨mem_of_peek?, fun mem => ?_⟩
  cases h : c.peek? page with
  | none => exact absurd rfl (peek?_eq_none_iff.1 h _ mem)
  | some other =>
    have same := List.inj_on_of_nodup_map c.nodup (mem_of_peek? h) mem rfl
    exact congrArg (fun entry => some entry.2) same

/-- A page is there exactly if it has a value. -/
theorem contains_eq_isSome : c.contains page = (c.peek? page).isSome := by
  rw [contains, peek?, Option.isSome_map, Bool.eq_iff_iff, List.any_eq_true, List.find?_isSome]

@[simp]
theorem peek?_empty : (empty : Cache α).peek? page = none :=
  rfl

/-- **Erasing** a page takes away its value and no other. -/
theorem peek?_erase : (c.erase page).peek? q = if q = page then none else c.peek? q := by
  split
  · rename_i same
    subst same
    rw [peek?_eq_none_iff]
    intro entry mem name
    simp [erase, name] at mem
  · rename_i other
    refine Option.ext fun value => ?_
    rw [peek?_eq_some_iff, peek?_eq_some_iff, erase, List.mem_filter]
    simp [other]

/-- **Inserting** a value for a page gives it that value, and leaves the
others theirs. -/
theorem peek?_insert :
    (c.insert page value).peek? q = if q = page then some value else c.peek? q := by
  refine Option.ext fun w => ?_
  have rest : (c.erase page).peek? q = if q = page then none else c.peek? q := peek?_erase
  rw [peek?_eq_some_iff, insert, List.mem_append, List.mem_singleton, ← peek?_eq_some_iff, rest]
  split
  · rename_i same
    subst same
    simp [eq_comm]
  · rename_i other
    simp [other]

/-- **Changing** the value of a page changes no other. -/
theorem peek?_modify (f : α → α) :
    (c.modify page f).peek? q = if q = page then (c.peek? q).map f else c.peek? q := by
  unfold modify peek?
  rw [List.find?_map]
  have names : ((fun entry : PageId × α => decide (entry.1 = q)) ∘ fun entry : PageId × α =>
      if entry.1 = page then (entry.1, f entry.2) else entry)
      = fun entry => decide (entry.1 = q) := by
    funext entry
    simp only [Function.comp_apply]
    split <;> rfl
  rw [names]
  cases found : c.entries.find? fun entry => decide (entry.1 = q) with
  | none => simp
  | some entry =>
    have name : entry.1 = q := by simpa using List.find?_some found
    simp only [Option.map_some, name]
    split <;> rfl

/-- The oldest page with a property is there and has it. -/
theorem oldest?_eq_some {wanted : α → Bool} (h : c.oldest? wanted = some page) :
    ∃ value, c.peek? page = some value ∧ wanted value = true := by
  obtain ⟨entry, found, rfl⟩ := Option.map_eq_some_iff.1 h
  exact ⟨entry.2, peek?_eq_some_iff.2 (List.mem_of_find?_eq_some found),
    by simpa using List.find?_some found⟩

/-- There is no oldest page with a property if none has it. -/
theorem oldest?_eq_none_iff {wanted : α → Bool} :
    c.oldest? wanted = none ↔ ∀ entry ∈ c.entries, wanted entry.2 = false := by
  simp [oldest?]

/-- The pages with a property are those that are there and have it. -/
theorem mem_pagesWith {wanted : α → Bool} :
    page ∈ c.pagesWith wanted ↔ ∃ value, c.peek? page = some value ∧ wanted value = true := by
  simp [pagesWith, peek?_eq_some_iff]

/-! ## The order and the number of values -/

/-- **Erasing** a page takes out its entry, and leaves the others in their
order. -/
theorem entries_erase {older newer : List (PageId × α)}
    (split : c.entries = older ++ (page, value) :: newer) :
    (c.erase page).entries = older ++ newer := by
  have distinct := c.nodup
  rw [split, List.map_append, List.map_cons, List.nodup_middle, List.nodup_cons,
    ← List.map_append] at distinct
  have others : ∀ entry ∈ older ++ newer, decide (entry.1 ≠ page) = true := fun entry there =>
    decide_eq_true fun name => distinct.1 (List.mem_map.2 ⟨entry, there, name⟩)
  show c.entries.filter (·.1 ≠ page) = older ++ newer
  rw [split, List.filter_append, List.filter_cons_of_neg (by simp), ← List.filter_append,
    List.filter_eq_self.2 others]

/-- Erasing a page that is not there does nothing. -/
theorem erase_of_absent (h : c.peek? page = none) : c.erase page = c := by
  have all : c.entries.filter (·.1 ≠ page) = c.entries :=
    List.filter_eq_self.2 fun entry there => decide_eq_true (peek?_eq_none_iff.1 h entry there)
  simp only [erase, all]

/-- A value that is put into the cache is the newest. -/
theorem entries_insert :
    (c.insert page value).entries = (c.erase page).entries ++ [(page, value)] :=
  rfl

/-- A page that is there takes up one place. -/
theorem size_erase (h : c.peek? page = some value) : (c.erase page).size + 1 = c.size := by
  obtain ⟨older, newer, split⟩ := List.append_of_mem (mem_of_peek? h)
  rw [size, size, entries_erase split, split]
  simp only [List.length_append, List.length_cons]
  omega

theorem size_insert : (c.insert page value).size = (c.erase page).size + 1 := by
  simp [size, insert]

/-- A value takes no new place if there was one for its page. -/
theorem size_insert_of_some {old : α} (h : c.peek? page = some old) :
    (c.insert page value).size = c.size := by
  rw [size_insert, size_erase h]

theorem size_insert_of_none (h : c.peek? page = none) :
    (c.insert page value).size = c.size + 1 := by
  rw [size_insert, erase_of_absent h]

theorem size_modify (f : α → α) : (c.modify page f).size = c.size := by
  simp [size, modify]

/-- Changing a value moves no page. -/
theorem pages_modify (f : α → α) : (c.modify page f).pages = c.pages := by
  rw [pages, pages, modify, List.map_map]
  refine List.map_congr_left fun entry _ => ?_
  simp only [Function.comp_apply]
  split <;> rfl

/-- No page is listed twice. -/
theorem nodup_pagesWith (wanted : α → Bool) : (c.pagesWith wanted).Nodup :=
  c.nodup.sublist (List.filter_sublist.map _)

/-- **The oldest page with a property**: those before it do not have it. -/
theorem oldest?_split {wanted : α → Bool} (h : c.oldest? wanted = some page) :
    ∃ older value newer, c.entries = older ++ (page, value) :: newer
      ∧ (∀ entry ∈ older, wanted entry.2 = false) ∧ wanted value = true := by
  obtain ⟨entry, found, rfl⟩ := Option.map_eq_some_iff.1 h
  obtain ⟨has, older, newer, split, before⟩ := List.find?_eq_some_iff_append.1 found
  exact ⟨older, entry.2, newer, split, fun x hx => by simpa using before x hx, has⟩

end Tablespace.Cache
