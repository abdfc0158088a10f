import Mathlib.Logic.Function.Basic
import Tablespace.Proofs.Operator.Aggregate
import Tablespace.Proofs.Operator.Join

/-!
# Groups and the rows they are made of

A row belongs to a group (`Aggregation.keyOf`) and adds a number to it
(`Aggregation.number`). What an aggregation keeps is a running value for each of
the groups that it has seen (`Groups.keyed`), in the order in which they were
first seen (`Aggregation.keys`), and a row changes the running value of its own
group alone (`Aggregation.add_of_admits`, `Groups.put_keyed`).

A column that is only counted need not hold numbers; its rows count as zeros
here, and counting does not look at them.
-/

namespace Tablespace

/-! ## Running values of groups -/

namespace Groups

/-- **The groups of some keys**, with a running value for each. -/
def keyed (keys : List (Option Value)) (r : Option Value → Running) : Groups :=
  keys.map fun k => (k, r k)

variable {keys : List (Option Value)} {r : Option Value → Running} {k : Option Value}

/-- The running value of a group, or that of a group which has seen no row. -/
theorem find_keyed : (keyed keys r).find k = if k ∈ keys then r k else .none := by
  rw [find, keyed, List.find?_map]
  have same : ((fun e : Option Value × Running => decide (e.1 = k)) ∘ fun k => (k, r k))
      = fun k' => decide (k' = k) := rfl
  rw [same]
  cases found : keys.find? fun k' => decide (k' = k) with
  | none =>
    have absent : k ∉ keys := fun there => by simpa using List.find?_eq_none.1 found k there
    rw [if_neg absent]
    rfl
  | some k' =>
    obtain rfl : k' = k := by simpa using List.find?_some found
    rw [if_pos (List.mem_of_find?_eq_some found)]
    rfl

/-- **One group is changed**, or comes last if it is new. -/
theorem put_keyed (x : Running) :
    (keyed keys r).put k x
      = keyed (if k ∈ keys then keys else keys ++ [k]) (Function.update r k x) := by
  have seen : (keyed keys r).any (fun e => decide (e.1 = k)) = decide (k ∈ keys) := by
    rw [Bool.eq_iff_iff, keyed, List.any_map, List.any_eq_true, decide_eq_true_iff]
    simp
  rw [put, seen]
  by_cases there : k ∈ keys
  · rw [decide_eq_true there, if_pos rfl, if_pos there, keyed, keyed, List.map_map]
    refine List.map_congr_left fun k' _ => ?_
    by_cases same : k' = k
    · subst same
      rw [Function.comp, if_pos rfl, Function.update_self]
    · rw [Function.comp, if_neg same, Function.update_of_ne same]
  · rw [decide_eq_false there, if_neg Bool.false_ne_true, if_neg there, keyed, keyed,
      List.map_append, List.map_singleton, Function.update_self]
    refine congrArg (· ++ [(k, x)]) (List.map_congr_left fun k' old => ?_)
    have other : k' ≠ k := fun same => there (same ▸ old)
    rw [Function.update_of_ne other]

end Groups

/-! ## Rows of groups -/

namespace Value

/-- A value of an integer column is a number. -/
theorem isSome_asInt? {v : Value} {type : DataType} (fits : v.fits type = true)
    (numeric : type.isNumeric = true) : ∃ n, v.asInt? = some n := by
  cases v with
  | int n => exact ⟨_, rfl⟩
  | big n => exact ⟨_, rfl⟩
  | bool b =>
    cases type with
    | boolean | char _ => cases numeric
    | integer | bigint => cases fits
  | str s =>
    cases type with
    | boolean | char _ => cases numeric
    | integer | bigint => cases fits

end Value

namespace Tuple

/-- A row has a value in each column of a schema that is as long. -/
theorem exists_value?_of_column? {row : Tuple} {schema : Schema} {position : Nat} {column : Column}
    (length : row.values.length = schema.columns.length)
    (h : schema.column? position = some column) :
    ∃ value, row.value? position = some value ∧
      (schema.columns.zip row.values)[position]? = some (column, value) := by
  obtain ⟨there, -⟩ := List.getElem?_eq_some_iff.1 h
  have value : row.value? position = some _ := List.getElem?_eq_getElem (length ▸ there)
  exact ⟨_, value, List.getElem?_zip_eq_some.2 ⟨h, value⟩⟩

end Tuple

namespace Aggregation

/-- **The group that a row belongs to**, by its value in the column that makes
the groups. -/
def keyOf (a : Aggregation) (row : Tuple) : Option Value :=
  a.group.bind row.value?

/-- **The number that a row adds to its group.** -/
def number (a : Aggregation) (row : Tuple) : Int64 :=
  ((row.value? a.column).bind Value.asInt?).getD 0

/-- **The groups of rows**, in the order of their first rows. -/
def keys (a : Aggregation) (rows : List Tuple) : List (Option Value) :=
  (rows.map a.keyOf).eraseDups

/-- **The rows of a group.** -/
def members (a : Aggregation) (rows : List Tuple) (k : Option Value) : List Tuple :=
  rows.filter fun row => a.keyOf row = k

variable {a : Aggregation} {fn : AggregateFn} {column : Nat} {group : Option Nat} {schema : Schema}
  {row : Tuple}

/-- A row is told its group. -/
theorem key_eq (made : ofSchema fn column group schema = .ok a)
    (length : row.values.length = schema.columns.length) : a.key row = .ok (a.keyOf row) := by
  obtain ⟨c, -, -, makes, rfl⟩ := ofSchema_eq_ok made
  cases group with
  | none => rfl
  | some position =>
    obtain ⟨k, found⟩ := makes position rfl
    obtain ⟨value, is, -⟩ := Tuple.exists_value?_of_column? length found
    rw [key, keyOf]
    dsimp only
    rw [field, Option.bind_some, is]
    rfl

/-- **A row that the schema admits** is added to its own group. -/
theorem add_of_admits (made : ofSchema fn column group schema = .ok a)
    (admits : schema.Admits row) (g : Groups) :
    a.add g row
      = ((g.find (a.keyOf row)).add fn (a.number row)).map (g.put (a.keyOf row)) := by
  have told := key_eq made admits.length_eq.symm
  obtain ⟨c, reduced, kind, -, is⟩ := ofSchema_eq_ok made
  have numeric : a.numeric = c.type.isNumeric := by rw [is]
  have function : a.fn = fn := by rw [is]
  have position : a.column = column := by rw [is]
  obtain ⟨value, at', here⟩ := Tuple.exists_value?_of_column? admits.length_eq.symm reduced
  have fits := (List.forall₂_iff_zip.1 admits).2 (List.mem_of_getElem? here)
  have read : field row a.column = .ok value := by rw [field, position, at']
  rw [add, read, told, numeric, function]
  cases integer : c.type.isNumeric with
  | true =>
    obtain ⟨n, number⟩ := Value.isSome_asInt? fits integer
    have adds : a.number row = n := by
      rw [Aggregation.number, position, at', Option.bind_some, number]
      rfl
    rw [adds]
    simp only [Bind.bind, Except.bind, if_true, number]
    cases (g.find (a.keyOf row)).add fn n <;> rfl
  | false =>
    have counts : fn = .count := kind.resolve_left (by rw [integer]; decide)
    rw [counts]
    rfl

/-- **The row of a group** can be made: the value that makes the group fits its
column, because it is that of a row. -/
theorem ofValues_of_admits (made : ofSchema fn column group schema = .ok a)
    (admits : schema.Admits row) (n : Int64) :
    ∃ h, Tuple.ofValues a.schema ((a.keyOf row).toList ++ [.big n])
      = .ok ⟨a.schema, (a.keyOf row).toList ++ [.big n], none, h⟩ := by
  obtain ⟨c, -, -, makes, rfl⟩ := ofSchema_eq_ok made
  have reduced (name : String) : List.Forall₂ (fun (c : Column) (v : Value) => v.fits c.type = true)
      [⟨name, .bigint⟩] [.big n] := .cons rfl .nil
  have keys : List.Forall₂ (fun (c : Column) (v : Value) => v.fits c.type = true)
      (group.bind schema.column?).toList (group.bind row.value?).toList := by
    cases group with
    | none => exact .nil
    | some position =>
      obtain ⟨k, found⟩ := makes position rfl
      obtain ⟨value, is, here⟩ := Tuple.exists_value?_of_column? admits.length_eq.symm found
      rw [Option.bind_some, Option.bind_some, found, is]
      exact .cons ((List.forall₂_iff_zip.1 admits).2 (List.mem_of_getElem? here)) .nil
  exact ⟨_, Tuple.ofValues_of_forall₂ (List.rel_append keys (reduced _))⟩

/-- **The result has one row for each group**, in the order of the groups, if the
groups are those of rows. -/
theorem results_keyed (made : ofSchema fn column group schema = .ok a)
    {keys : List (Option Value)} {r : Option Value → Running}
    (seen : ∀ k ∈ keys, ∃ row, schema.Admits row ∧ a.keyOf row = k) :
    ∃ results, a.results (Groups.keyed keys r) = .ok results ∧
      results.map Tuple.values = keys.map (fun k => k.toList ++ [.big ((r k).result a.fn)]) ∧
      ∀ row ∈ results, row.schema = a.schema ∧ row.record = none := by
  induction keys with
  | nil => exact ⟨[], rfl, rfl, fun _ there => nomatch there⟩
  | cons k keys ih =>
    obtain ⟨results, rest, values, schemas⟩ := ih fun k' later => seen k' (List.mem_cons_of_mem k later)
    obtain ⟨row, admits, rfl⟩ := seen k List.mem_cons_self
    obtain ⟨h, first⟩ := ofValues_of_admits made admits ((r (a.keyOf row)).result a.fn)
    refine ⟨⟨a.schema, _, none, h⟩ :: results, ?_, ?_, ?_⟩
    · rw [Groups.keyed, List.map_cons, Aggregation.results, List.mapM_cons, first]
      rw [Aggregation.results, Groups.keyed] at rest
      rw [rest]
      rfl
    · rw [List.map_cons, List.map_cons, values]
    · exact List.forall_mem_cons.2 ⟨⟨rfl, rfl⟩, schemas⟩

/-- A group that is seen is that of a row. -/
theorem exists_of_mem_keys {rows : List Tuple} {k : Option Value} (seen : k ∈ a.keys rows) :
    ∃ row ∈ rows, a.keyOf row = k :=
  List.mem_map.1 (List.mem_eraseDups.1 seen)

/-- A row that comes behind others is of a group seen before or of a new one. -/
theorem keys_concat (rows : List Tuple) :
    a.keys (rows ++ [row])
      = if a.keyOf row ∈ a.keys rows then a.keys rows else a.keys rows ++ [a.keyOf row] := by
  have seen : a.keyOf row ∈ a.keys rows ↔ a.keyOf row ∈ rows.map a.keyOf := List.mem_eraseDups
  rw [keys, List.map_append, List.eraseDups_append, List.map_singleton, List.removeAll]
  split
  · rename_i old
    rw [List.filter_singleton, List.elem_eq_mem, decide_eq_true (seen.1 old)]
    exact List.append_nil _
  · rename_i new
    rw [List.filter_singleton, List.elem_eq_mem, decide_eq_false (mt seen.2 new)]
    rfl

theorem members_append (rows later : List Tuple) (k : Option Value) :
    a.members (rows ++ later) k = a.members rows k ++ a.members later k :=
  List.filter_append ..

theorem members_singleton (k : Option Value) :
    a.members [row] k = if a.keyOf row = k then [row] else [] := by
  rw [members, List.filter_singleton]
  by_cases own : a.keyOf row = k
  · rw [decide_eq_true own, if_pos own]
    rfl
  · rw [decide_eq_false own, if_neg own]
    rfl

/-- A group without rows has not been seen. -/
theorem members_eq_nil_of_not_mem {rows : List Tuple} {k : Option Value} (new : k ∉ a.keys rows) :
    a.members rows k = [] := by
  rw [members, List.filter_eq_nil_iff]
  intro row there own
  refine new (List.mem_eraseDups.2 (List.mem_map.2 ⟨row, there, ?_⟩))
  exact of_decide_eq_true own

end Aggregation

end Tablespace
