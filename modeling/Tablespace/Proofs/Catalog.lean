import Mathlib.Data.List.Nodup
import Tablespace.Catalog
import Tablespace.Proofs.Assoc

/-!
# The two indexes of the catalog

The catalog finds a table by its number and by its name, and keeps an index for
either. A registration can meet a table that has its name and another one that
has its number, and takes both out of both indexes. That the index of the names
lists the names of the entries and no others (`Catalog.Sound`) is what makes it
find the entry to take out, and is what it preserves.

`Catalog.run_inverse` says that after any series of registrations and clearings
the names and the numbers of the tables are in one-to-one correspondence, and
what exactly a registration changes.
-/

namespace Tablespace

/-- **What can be done to a catalog.** -/
inductive CatalogChange where
  /-- A file is registered under a name. -/
  | add (file : HeapFile) (name : String)
  /-- All tables are forgotten. -/
  | clear
  deriving DecidableEq

namespace Catalog

variable {c : Catalog} {table : TableId} {name n : String} {file f : HeapFile} {e : CatalogEntry}

/-- The catalog after a change. -/
def perform (c : Catalog) : CatalogChange → Catalog
  | .add file name => c.add file name
  | .clear => .empty

/-- The catalog after a series of changes, from the empty one. -/
def run (changes : List CatalogChange) : Catalog :=
  changes.foldl perform empty

/-- **A table is registered** under a name and with a file, and is found by either. -/
def Registers (c : Catalog) (table : TableId) (name : String) (file : HeapFile) : Prop :=
  c.tableNamed name = .ok table ∧ c.tableName table = .ok name ∧ c.file table = .ok file

/-- **A catalog whose indexes are inverse to each other.** -/
structure Inverse (c : Catalog) : Prop where
  /-- A name names a table if it is the name of the table. -/
  inverse : ∀ name table, c.tableNamed name = .ok table ↔ c.tableName table = .ok name
  /-- A table has a name if it has a file. -/
  filed : ∀ table, (∃ name, c.tableName table = .ok name) ↔ ∃ file, c.file table = .ok file
  /-- The tables listed are those that have a file. -/
  listed : ∀ table, table ∈ c.tables ↔ ∃ file, c.file table = .ok file
  /-- They are listed in ascending order, and none twice. -/
  ascending : c.tables.Pairwise fun a b => a.number < b.number

/-! ## What keeps the indexes together -/

/-- **A catalog whose indexes list the same tables.** -/
structure Sound (c : Catalog) : Prop where
  /-- A table has one entry. -/
  distinct : (c.entries.map (·.table)).Nodup
  /-- The names are those of the entries, and name their tables. -/
  indexed : ∀ name table,
    c.names.get? name = some table ↔ ∃ e ∈ c.entries, e.name = name ∧ e.table = table

theorem sound_empty : empty.Sound :=
  ⟨List.nodup_nil, fun _ _ => iff_of_false (fun h => by cases h) fun ⟨_, there, _⟩ => by cases there⟩

/-- What is found by a number is an entry of this number. -/
theorem mem_of_find?_table (found : c.entries.find? (·.table = table) = some e) :
    e ∈ c.entries ∧ e.table = table :=
  ⟨List.mem_of_find?_eq_some found, by simpa using List.find?_some found⟩

/-- Where nothing is found by a number, nothing goes by it. -/
theorem filter_table_of_find? (found : c.entries.find? (·.table = table) = none) :
    c.entries.filter (·.table ≠ table) = c.entries := by
  refine List.filter_eq_self.2 fun e he => ?_
  simpa using List.find?_eq_none.1 found e he

/-- To take a table out is to take out what goes by its number. -/
theorem entries_dropTable : (c.dropTable table).entries = c.entries.filter (·.table ≠ table) := by
  unfold dropTable
  cases found : c.entries.find? (·.table = table) with
  | some e => rfl
  | none => exact (filter_table_of_find? found).symm

/-- To take a name out is to take it out of the index. -/
theorem names_dropNamed :
    (c.dropNamed name).names.get? n = if n = name then none else c.names.get? n := by
  unfold dropNamed
  cases found : c.names.get? name with
  | some table => exact Assoc.get?_erase
  | none =>
    dsimp only
    by_cases same : n = name
    · rw [if_pos same, same, found]
    · rw [if_neg same]

namespace Sound

variable (sound : c.Sound)

include sound

/-- An entry is told by its table. -/
theorem eq_of_table {d : CatalogEntry} (hd : d ∈ c.entries) (he : e ∈ c.entries)
    (same : d.table = e.table) : d = e :=
  List.inj_on_of_nodup_map sound.distinct hd he same

theorem get?_name (he : e ∈ c.entries) : c.names.get? e.name = some e.table :=
  (sound.indexed _ _).2 ⟨e, he, rfl, rfl⟩

/-- An entry is told by its name. -/
theorem eq_of_name {d : CatalogEntry} (hd : d ∈ c.entries) (he : e ∈ c.entries)
    (same : d.name = e.name) : d = e := by
  have tables := sound.get?_name hd
  rw [same, sound.get?_name he, Option.some_inj] at tables
  exact sound.eq_of_table hd he tables.symm

/-- To take a name out is to take out what goes by it. -/
theorem entries_dropNamed : (c.dropNamed name).entries = c.entries.filter (·.name ≠ name) := by
  unfold dropNamed
  cases found : c.names.get? name with
  | some table =>
    refine List.filter_congr fun e he => ?_
    obtain ⟨d, hd, named, numbered⟩ := (sound.indexed _ _).1 found
    have same : e.table = table ↔ e.name = name := by
      constructor
      · intro same
        rw [← named, sound.eq_of_table he hd (same.trans numbered.symm)]
      · intro same
        rw [← numbered, sound.eq_of_name he hd (same.trans named.symm)]
    simp [same]
  | none =>
    refine (List.filter_eq_self.2 fun e he => ?_).symm
    refine decide_eq_true fun same => ?_
    rw [← same, sound.get?_name he] at found
    cases found

theorem dropNamed (name : String) : (c.dropNamed name).Sound where
  distinct := by
    rw [sound.entries_dropNamed]
    exact sound.distinct.sublist (List.filter_sublist.map _)
  indexed n table := by
    rw [names_dropNamed, sound.entries_dropNamed]
    split
    · rename_i same
      refine iff_of_false (fun h => by cases h) ?_
      rintro ⟨e, he, named, -⟩
      exact of_decide_eq_true (List.mem_filter.1 he).2 (named.trans same)
    · rename_i other
      rw [sound.indexed]
      refine exists_congr fun e => and_congr_left fun is => ?_
      rw [List.mem_filter, and_iff_left (decide_eq_true (is.1 ▸ other))]

theorem dropTable (table : TableId) : (c.dropTable table).Sound where
  distinct := by
    rw [entries_dropTable]
    exact sound.distinct.sublist (List.filter_sublist.map _)
  indexed n t := by
    rw [entries_dropTable]
    unfold Catalog.dropTable
    cases found : c.entries.find? (·.table = table) with
    | none =>
      rw [filter_table_of_find? found]
      exact sound.indexed n t
    | some d =>
      -- the name that is taken out is that of the entry, and no other entry has it
      obtain ⟨hd, numbered⟩ := mem_of_find?_table found
      rw [show (Catalog.mk _ (c.names.erase d.name)).names.get? n = _ from Assoc.get?_erase]
      split
      · rename_i same
        refine iff_of_false (fun h => by cases h) ?_
        rintro ⟨e, he, named, -⟩
        obtain ⟨he, other⟩ := List.mem_filter.1 he
        have same := sound.eq_of_name he hd (named.trans same)
        exact of_decide_eq_true other (same ▸ numbered)
      · rename_i other
        rw [sound.indexed]
        refine exists_congr fun e => and_congr_left fun is => ?_
        refine (and_iff_left_of_imp fun he => ?_).symm.trans List.mem_filter.symm
        refine decide_eq_true fun same => other ?_
        rw [← is.1, sound.eq_of_table he hd (same.trans numbered.symm)]

/-- **What a registration leaves**: the new entry, and those that share neither its name nor its
number. -/
theorem mem_entries_add_iff : e ∈ (c.add file name).entries
    ↔ e = ⟨name, file⟩ ∨ e ∈ c.entries ∧ e.name ≠ name ∧ e.table ≠ file.table := by
  rw [Catalog.add, List.mem_cons, entries_dropTable, sound.entries_dropNamed, List.filter_filter,
    List.mem_filter, Bool.and_eq_true, decide_eq_true_eq, decide_eq_true_eq]
  exact or_congr_right (and_congr_right fun _ => and_comm)

/-- **A registration keeps the indexes together.** -/
theorem add (file : HeapFile) (name : String) : (c.add file name).Sound where
  distinct := by
    have rest := (sound.dropNamed name).dropTable file.table
    refine List.nodup_cons.2 ⟨fun there => ?_, rest.distinct⟩
    obtain ⟨e, he, same⟩ := List.mem_map.1 there
    rw [entries_dropTable] at he
    exact of_decide_eq_true (List.mem_filter.1 he).2 same
  indexed n t := by
    have rest := (sound.dropNamed name).dropTable file.table
    rw [show (c.add file name).names.get? n = _ from Assoc.get?_insert]
    split
    · rename_i same
      subst same
      constructor
      · intro h
        exact ⟨⟨n, file⟩, List.mem_cons_self, rfl, Option.some_inj.1 h⟩
      · rintro ⟨e, he, named, rfl⟩
        rcases sound.mem_entries_add_iff.1 he with rfl | ⟨-, other, -⟩
        · rfl
        · exact absurd named other
    · rename_i other
      rw [rest.indexed]
      refine exists_congr fun e => and_congr_left fun is => ?_
      refine (or_iff_right fun new => other ?_).symm.trans List.mem_cons.symm
      rw [← is.1, new]

/-! ## What is looked up -/

theorem entry_eq_ok_iff : c.entry table = .ok e ↔ e ∈ c.entries ∧ e.table = table := by
  unfold entry
  cases found : c.entries.find? (·.table = table) with
  | none =>
    refine iff_of_false (fun h => by cases h) fun ⟨he, same⟩ => ?_
    simpa [same] using List.find?_eq_none.1 found e he
  | some d =>
    obtain ⟨hd, numbered⟩ := mem_of_find?_table found
    constructor
    · intro same
      cases same
      exact ⟨hd, numbered⟩
    · intro ⟨he, same⟩
      exact congrArg Except.ok (sound.eq_of_table hd he (numbered.trans same.symm))

/-- What is found of a table is found in its entry. -/
theorem map_entry_eq_ok_iff {α : Type} {part : CatalogEntry → α} {value : α} :
    (c.entry table).map part = .ok value
      ↔ ∃ e ∈ c.entries, part e = value ∧ e.table = table := by
  have parts : (c.entry table).map part = .ok value
      ↔ ∃ e, c.entry table = .ok e ∧ part e = value := by
    cases c.entry table with
    | error cause => exact iff_of_false (fun h => by cases h) fun ⟨_, h, _⟩ => by cases h
    | ok d =>
      constructor
      · intro same
        exact ⟨d, rfl, Except.ok.inj same⟩
      · rintro ⟨e, same, rfl⟩
        rw [same]
        rfl
  rw [parts]
  refine exists_congr fun e => ?_
  rw [sound.entry_eq_ok_iff, and_assoc, and_comm (b := part e = value)]

theorem tableNamed_eq_ok_iff : c.tableNamed name = .ok table
    ↔ ∃ e ∈ c.entries, e.name = name ∧ e.table = table := by
  rw [← sound.indexed, tableNamed]
  cases c.names.get? name with
  | none => exact iff_of_false (fun h => by cases h) fun h => by cases h
  | some t => rw [Except.ok.injEq, Option.some_inj]

/-- **What is registered** is what the entries say. -/
theorem registers_iff : c.Registers table name file
    ↔ ⟨name, file⟩ ∈ c.entries ∧ file.table = table := by
  unfold Registers
  rw [sound.tableNamed_eq_ok_iff, tableName, Catalog.file, sound.map_entry_eq_ok_iff,
    sound.map_entry_eq_ok_iff]
  constructor
  · rintro ⟨-, ⟨e, he, rfl, numbered⟩, d, hd, rfl, rfl⟩
    have same := sound.eq_of_table he hd numbered
    exact ⟨same ▸ hd, rfl⟩
  · rintro ⟨there, rfl⟩
    exact ⟨⟨_, there, rfl, rfl⟩, ⟨_, there, rfl, rfl⟩, _, there, rfl, rfl⟩

/-- **The tables are listed in ascending order**, and none twice. -/
theorem pairwise_tables : c.tables.Pairwise fun a b => a.number < b.number := by
  have sorted : c.tables.Pairwise fun a b => decide (a.number.toNat ≤ b.number.toNat) = true :=
    List.pairwise_mergeSort (fun _ _ _ ab bc => by
      simp only [decide_eq_true_eq] at *
      omega) (fun a b => by
      simp only [Bool.or_eq_true, decide_eq_true_eq]
      omega) _
  have distinct : c.tables.Nodup := (List.mergeSort_perm _ _).nodup_iff.2 sound.distinct
  refine (sorted.and distinct).imp fun {a b} ⟨le, ne⟩ => ?_
  have differ : a.number.toNat ≠ b.number.toNat := fun same =>
    ne (congrArg TableId.mk (UInt32.toNat_inj.1 same))
  rw [decide_eq_true_eq] at le
  exact UInt32.lt_iff_toNat_lt.2 (Nat.lt_of_le_of_ne le differ)

theorem mem_tables_iff : table ∈ c.tables ↔ ∃ file, c.file table = .ok file := by
  rw [tables, List.mem_mergeSort, List.mem_map]
  simp only [Catalog.file, sound.map_entry_eq_ok_iff]
  exact ⟨fun ⟨e, he, numbered⟩ => ⟨_, e, he, rfl, numbered⟩,
    fun ⟨_, e, he, _, numbered⟩ => ⟨e, he, numbered⟩⟩

/-- A catalog whose indexes list the same tables has inverse indexes. -/
theorem inverse : c.Inverse where
  inverse name table := by
    rw [sound.tableNamed_eq_ok_iff, tableName, sound.map_entry_eq_ok_iff]
  filed table := by
    simp only [tableName, Catalog.file, sound.map_entry_eq_ok_iff]
    exact ⟨fun ⟨_, e, he, _, numbered⟩ => ⟨_, e, he, rfl, numbered⟩,
      fun ⟨_, e, he, _, numbered⟩ => ⟨_, e, he, rfl, numbered⟩⟩
  listed _ := sound.mem_tables_iff
  ascending := sound.pairwise_tables

end Sound

theorem Sound.perform (sound : c.Sound) (change : CatalogChange) : (c.perform change).Sound := by
  cases change with
  | add file name => exact sound.add file name
  | clear => exact sound_empty

theorem sound_run (changes : List CatalogChange) : (run changes).Sound := by
  have go (c : Catalog) (sound : c.Sound) : (changes.foldl Catalog.perform c).Sound := by
    induction changes generalizing c with
    | nil => exact sound
    | cons change changes ih => exact ih _ (sound.perform change)
  exact go empty sound_empty

/-- **The two indexes of the catalog stay inverse.** After any series of registrations and
clearings, the names and the numbers of the tables are in one-to-one correspondence, and the
tables listed are those that have a file. A further registration makes its table, name and file
belong together. What was registered before stays as it was, unless it shares the number or the
name, and then it is gone. -/
theorem run_inverse (changes : List CatalogChange) :
    (run changes).Inverse
      ∧ (∀ file name table n f, (run (changes ++ [.add file name])).Registers table n f
        ↔ table = file.table ∧ n = name ∧ f = file
          ∨ table ≠ file.table ∧ n ≠ name ∧ (run changes).Registers table n f)
      ∧ ∀ table n f, ¬(run (changes ++ [.clear])).Registers table n f := by
  have sound := sound_run changes
  have last (change : CatalogChange) : run (changes ++ [change]) = (run changes).perform change := by
    rw [run, List.foldl_append]
    rfl
  refine ⟨sound.inverse, fun file name table n f => ?_, fun table n f registered => ?_⟩
  · rw [last, (sound.perform _).registers_iff, sound.registers_iff, Catalog.perform,
      sound.mem_entries_add_iff, CatalogEntry.mk.injEq]
    constructor
    · rintro ⟨⟨rfl, rfl⟩ | ⟨old, unnamed, apart⟩, rfl⟩
      · exact .inl ⟨rfl, rfl, rfl⟩
      · exact .inr ⟨apart, unnamed, old, rfl⟩
    · rintro (⟨rfl, rfl, rfl⟩ | ⟨apart, unnamed, old, rfl⟩)
      · exact ⟨.inl ⟨rfl, rfl⟩, rfl⟩
      · exact ⟨.inr ⟨old, unnamed, apart⟩, rfl⟩
  · rw [last] at registered
    cases registered.1

end Catalog

end Tablespace
