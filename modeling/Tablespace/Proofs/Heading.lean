import Tablespace.Proofs.Assoc
import Tablespace.Proofs.Codec.Tuple
import Tablespace.Proofs.Operator.Join

/-!
# The algebra of headings

A heading is made anew, column by column, whenever columns are put together,
renamed or picked. Whatever places the columns had before, the heading is
the one of their names and types (`Heading.new_eq_heading`), so headings that are
built in any way (`Heading.Built`) are told by their schemas.

`Heading.Built.algebra` says what such headings hold – the places, the number of
bytes, and for each name the last place at which it occurs – and how they go
together: to put headings together is associative, an alias is seen through, and
to pick twice is to pick once. Rows follow: what a name finds in two rows put
together is what it finds in the right one, if the right heading has it, and in
the left one otherwise.
-/

namespace Tablespace

/-! ## Picking from a list -/

section

variable {α β γ : Type} {f : α → Option β} {l : List α} {r : List β}

/-- What is picked is what is there for each member of a list. -/
theorem mapM_eq_some_iff : l.mapM f = some r ↔ List.Forall₂ (fun a b => f a = some b) l r := by
  induction l generalizing r with
  | nil => simp [eq_comm]
  | cons a l ih =>
    rw [List.mapM_cons, List.forall₂_cons_left_iff]
    simp only [bind, Option.bind_eq_some_iff, pure, ← ih, Option.some_inj]
    constructor
    · rintro ⟨b, here, bs, rest, rfl⟩
      exact ⟨b, bs, here, rest, rfl⟩
    · rintro ⟨b, bs, here, rest, rfl⟩
      exact ⟨b, here, bs, rest, rfl⟩

/-- Something can be picked if there is something for each member. -/
theorem isSome_mapM_iff : (l.mapM f).isSome = true ↔ ∀ a ∈ l, (f a).isSome = true := by
  induction l with
  | nil => simp
  | cons a l ih =>
    rw [List.mapM_cons, List.forall_mem_cons, ← ih]
    cases f a <;> cases l.mapM f <;> simp

theorem getElem?_mapM (picked : l.mapM f = some r) (i : Nat) : r[i]? = l[i]?.bind f := by
  replace picked := mapM_eq_some_iff.1 picked
  induction picked generalizing i with
  | nil => simp
  | cons here _ ih =>
    cases i with
    | zero => simpa using here.symm
    | succ i => simpa using ih i

theorem mapM_map (g : β → γ) : l.mapM (fun a => (f a).map g) = (l.mapM f).map (·.map g) := by
  induction l with
  | nil => simp
  | cons a l ih =>
    rw [List.mapM_cons, List.mapM_cons, ih]
    cases f a <;> cases l.mapM f <;> simp

/-- **To pick from what is picked** is to pick once. -/
theorem mapM_bind (g : γ → Option α) (places : List γ) :
    places.mapM (fun i => (g i).bind f) = (places.mapM g).bind (·.mapM f) := by
  induction places with
  | nil => simp
  | cons i places ih =>
    rw [List.mapM_cons, List.mapM_cons, ih]
    cases g i with
    | none => rfl
    | some a =>
      cases places.mapM g with
      | none => cases here : f a <;> simp [here]
      | some as => simp [List.mapM_cons]

end

/-! ## The last place of a name -/

/-- **The last place** at which a name occurs among columns. -/
def lastPlace? (name : String) : List Column → Option Nat
  | [] => none
  | c :: cs => ((lastPlace? name cs).map (· + 1)).or (if c.name = name then some 0 else none)

section

variable {name : String} {cs ds : List Column} {i : Nat}

theorem lastPlace?_eq_none_iff : lastPlace? name cs = none ↔ ∀ c ∈ cs, c.name ≠ name := by
  induction cs with
  | nil => simp [lastPlace?]
  | cons c cs ih =>
    rw [lastPlace?, Option.or_eq_none_iff, Option.map_eq_none_iff, ih, List.forall_mem_cons]
    split <;> simp_all

/-- **A name occurs at a place** and at none behind it. -/
def IsLast (name : String) (cs : List Column) (i : Nat) : Prop :=
  (∃ c, cs[i]? = some c ∧ c.name = name) ∧ ∀ j c, i < j → cs[j]? = some c → c.name ≠ name

theorem IsLast.unique {j : Nat} (last : IsLast name cs i) (other : IsLast name cs j) : i = j := by
  obtain ⟨⟨c, hc, named⟩, none⟩ := last
  obtain ⟨⟨d, hd, named'⟩, none'⟩ := other
  rcases Nat.lt_trichotomy i j with lt | eq | gt
  · exact absurd named' (none j d lt hd)
  · exact eq
  · exact absurd named (none' i c gt hc)

/-- What is last among the columns behind is last. -/
theorem isLast_cons_succ (c : Column) (last : IsLast name cs i) : IsLast name (c :: cs) (i + 1) := by
  refine ⟨last.1, fun j d behind there => ?_⟩
  obtain ⟨j, rfl⟩ := Nat.exists_eq_succ_of_ne_zero (Nat.ne_zero_of_lt behind)
  exact last.2 j d (Nat.lt_of_succ_lt_succ behind) there

theorem isLast_of_lastPlace? (h : lastPlace? name cs = some i) : IsLast name cs i := by
  induction cs generalizing i with
  | nil => cases h
  | cons c cs ih =>
    rw [lastPlace?] at h
    cases behind : lastPlace? name cs with
    | some k =>
      rw [behind] at h
      cases h
      exact isLast_cons_succ c (ih behind)
    | none =>
      rw [behind, Option.map_none, Option.none_or, Option.ite_none_right_eq_some] at h
      obtain ⟨named, first⟩ := h
      cases first
      refine ⟨⟨c, rfl, named⟩, fun j d later there => ?_⟩
      obtain ⟨j, rfl⟩ := Nat.exists_eq_succ_of_ne_zero (Nat.ne_zero_of_lt later)
      exact lastPlace?_eq_none_iff.1 behind d (List.mem_of_getElem? there)

theorem lastPlace?_eq_some_iff : lastPlace? name cs = some i ↔ IsLast name cs i := by
  refine ⟨isLast_of_lastPlace?, fun last => ?_⟩
  cases found : lastPlace? name cs with
  | none =>
    obtain ⟨⟨c, there, named⟩, -⟩ := last
    exact absurd named (lastPlace?_eq_none_iff.1 found c (List.mem_of_getElem? there))
  | some k => rw [(isLast_of_lastPlace? found).unique last]

/-- Of columns put together, a name names one of those behind, if it occurs there. -/
theorem lastPlace?_append : lastPlace? name (cs ++ ds)
    = ((lastPlace? name ds).map (cs.length + ·)).or (lastPlace? name cs) := by
  induction cs with
  | nil => simp [lastPlace?]
  | cons c cs ih =>
    rw [List.cons_append, lastPlace?, ih, lastPlace?]
    cases lastPlace? name ds <;> simp [Nat.add_right_comm]

/-- An alias is seen through. -/
theorem lastPlace?_aliased (label : String) :
    lastPlace? (label ++ "." ++ name) (cs.map (·.aliased label)) = lastPlace? name cs := by
  induction cs with
  | nil => rfl
  | cons c cs ih =>
    have same : (c.aliased label).name = label ++ "." ++ name ↔ c.name = name :=
      String.append_right_inj (label ++ ".")
    simp only [List.map_cons, lastPlace?, ih, same]

end

/-! ## What a heading is made of -/

namespace Heading

variable {h k l : Heading} {name label : String}

/-- Columns are placed behind those that are there. -/
theorem columns_foldl_add (cs : List PlacedColumn) : (cs.foldl add h).columns
    = h.columns ++ cs.mapIdx fun i c => { c with place := h.columns.length + i } := by
  induction cs generalizing h with
  | nil => simp
  | cons c cs ih =>
    rw [List.foldl_cons, ih, List.mapIdx_cons]
    simp [add, Nat.add_assoc, Nat.add_comm 1]

theorem rowSize_foldl_add (cs : List PlacedColumn) :
    (cs.foldl add h).rowSize = h.rowSize + Schema.sizeOf (cs.map (·.toColumn)) := by
  induction cs generalizing h with
  | nil => rfl
  | cons c cs ih => rw [List.foldl_cons, ih, List.map_cons, Schema.sizeOf, add, Nat.add_assoc]

/-- **The index has the last place of a name**: a later column takes the name from those before
it. -/
theorem place?_foldl_add (cs : List PlacedColumn) : (cs.foldl add h).place? name
    = ((lastPlace? name (cs.map (·.toColumn))).map (h.columns.length + ·)).or (h.place? name) := by
  induction cs generalizing h with
  | nil => simp [lastPlace?]
  | cons c cs ih =>
    have one : (h.add c).place? name
        = (if c.name = name then some h.columns.length else none).or (h.place? name) := by
      rw [place?, add, Assoc.get?_insert]
      by_cases same : name = c.name
      · rw [if_pos same, if_pos same.symm, Option.some_or]
      · rw [if_neg same, if_neg (Ne.symm same), Option.none_or, place?]
    rw [List.foldl_cons, ih, one, List.map_cons, lastPlace?, ← Option.or_assoc]
    congr 1
    cases lastPlace? name (cs.map (·.toColumn)) with
    | some i => simp [add, Nat.add_assoc, Nat.add_comm 1]
    | none => split <;> simp [*]

/-- **Where columns stood before does not count** when a heading is made of them. -/
theorem new_eq_heading (cs : List PlacedColumn) :
    new cs = (Schema.mk (cs.map (·.toColumn))).heading := by
  rw [Schema.heading, new, new, List.map_map, List.foldl_map]
  rfl

end Heading

namespace Schema

open Heading

variable (s : Schema)

theorem columns_heading :
    s.heading.columns = s.columns.mapIdx fun i c => { c with place := i } := by
  rw [heading, new, columns_foldl_add]
  refine List.ext_getElem? fun i => ?_
  simp [Heading.empty, Column.unplaced, Function.comp_def]

/-- A column of the heading is the column of the schema, in its place. -/
theorem column?_heading (i : Nat) :
    s.heading.columns[i]? = s.columns[i]?.map fun c => { c with place := i } := by
  rw [columns_heading, List.getElem?_mapIdx]

theorem schema_heading : s.heading.schema = s := by
  have columns : s.heading.columns.map (·.toColumn) = s.columns := by
    refine List.ext_getElem? fun i => ?_
    simp [column?_heading, Function.comp_def]
  rw [Heading.schema, columns]

theorem rowSize_heading : s.heading.rowSize = s.rowSize := by
  rw [heading, new, rowSize_foldl_add, List.map_map]
  simp [Heading.empty, Column.unplaced, rowSize, Function.comp_def]

theorem width_heading : s.heading.width = s.columns.length := by
  rw [width, columns_heading, List.length_mapIdx]

/-- **A name names the last column** that it occurs at. -/
theorem place?_heading (name : String) : s.heading.place? name = lastPlace? name s.columns := by
  rw [heading, new, place?_foldl_add, List.map_map]
  simp [Heading.empty, place?, Column.unplaced, Function.comp_def]

theorem rowSize_append (s' : Schema) : (s.append s').rowSize = s.rowSize + s'.rowSize := by
  obtain ⟨cs⟩ := s
  unfold append rowSize
  induction cs with
  | nil => exact (Nat.zero_add _).symm
  | cons c cs ih =>
    dsimp only at ih ⊢
    rw [List.cons_append, sizeOf, ih, sizeOf, Nat.add_assoc]

/-- An alias changes no types. -/
theorem sameLayout_aliased (label : String) : s.sameLayout (s.aliased label) = true := by
  simp [sameLayout, layout, aliased, Column.aliased, Function.comp_def]

end Schema

/-! ## Headings that are built -/

namespace Heading

variable {h k l : Heading} {name label : String} {places : List Nat}

/-- A heading that was made of columns is told by its schema. -/
theorem heading_schema_new (cs : List PlacedColumn) : (new cs).schema.heading = new cs := by
  rw [new_eq_heading, Schema.schema_heading]

theorem append_eq : h.append k = (h.schema.append k.schema).heading := by
  rw [append, new_eq_heading, List.map_map, List.map_append]
  rfl

theorem aliased_eq : h.aliased label = (h.schema.aliased label).heading := by
  rw [aliased, new_eq_heading, Schema.aliased, schema, List.map_map, List.map_map]
  rfl

theorem project?_eq : h.project? places
    = (places.mapM (h.schema.columns[·]?)).map fun cs => (Schema.mk cs).heading := by
  have columns : (h.schema.columns[·]?) = fun i => (h.column? i).map (·.toColumn) :=
    funext fun i => List.getElem?_map
  rw [columns, mapM_map, Option.map_map, project?]
  exact congrArg (Option.map · _) (funext new_eq_heading)

theorem sameLayout_eq : h.sameLayout k = h.schema.sameLayout k.schema := by
  obtain ⟨cs, _, _⟩ := h
  obtain ⟨ds, _, _⟩ := k
  rw [sameLayout, Schema.sameLayout, Schema.layout, Schema.layout]
  dsimp only [schema]
  induction cs generalizing ds with
  | nil => cases ds <;> simp
  | cons c cs ih =>
    cases ds with
    | nil => simp
    | cons d ds =>
      have ih := ih ds
      simp only [List.map_map] at ih ⊢
      simp [← ih, Bool.and_left_comm]

/-- **A heading that was built**, of columns or of other headings. -/
inductive Built : Heading → Prop where
  | new (columns : List PlacedColumn) : Built (.new columns)
  | append {h k : Heading} (left : Built h) (right : Built k) : Built (h.append k)
  | aliased {h : Heading} (whole : Built h) (label : String) : Built (h.aliased label)
  | project {h k : Heading} (whole : Built h) {places : List Nat}
      (picked : h.project? places = some k) : Built k

/-- **A heading that was built is told by its schema.** -/
theorem Built.heading_schema (built : h.Built) : h.schema.heading = h := by
  cases built with
  | new columns => exact heading_schema_new columns
  | append left right => exact heading_schema_new _
  | aliased whole label => exact heading_schema_new _
  | project whole picked =>
    obtain ⟨columns, -, rfl⟩ := Option.map_eq_some_iff.1 picked
    exact heading_schema_new columns

end Heading

/-! ## Names and rows -/

namespace Tuple

variable {s s' : Schema} {t u w : Tuple} {name : String}

theorem valueOf?_eq : t.valueOf? name = (lastPlace? name t.schema.columns).bind (t.values[·]?) := by
  rw [valueOf?, Schema.position?, Schema.place?_heading]
  rfl

/-- **Rows can be put together** exactly if the values of both fit. -/
theorem append_ok (length : t.values.length = s.columns.length)
    (made : t.append u (s.append s') = .ok w) :
    w.schema = s.append s' ∧ w.values = t.values ++ u.values ∧ s.Admits t ∧ s'.Admits u := by
  obtain ⟨schema, admitted⟩ := admits_of_ofValues made
  have values : w.values = t.values ++ u.values := by
    unfold append ofValues at made
    split at made
    · split at made <;> cases made
      rfl
    · cases made
  have fits : List.Forall₂ (fun c v => v.fits c.type = true) (s.columns ++ s'.columns)
      (t.values ++ u.values) := values ▸ admitted
  have left := List.forall₂_take_append _ _ _ fits
  have right := List.forall₂_drop_append _ _ _ fits
  rw [length, List.take_left] at left
  rw [length, List.drop_left] at right
  exact ⟨schema, values, left, right⟩

/-- **What a name finds in rows put together.** -/
theorem valueOf?_append (left : t.schema = s) (right : u.schema = s')
    (made : t.append u (s.append s') = .ok w) : w.valueOf? name
      = if (lastPlace? name s'.columns).isSome then u.valueOf? name else t.valueOf? name := by
  subst left right
  obtain ⟨schema, values, -, -⟩ := append_ok t.length_values made
  rw [valueOf?_eq, valueOf?_eq, valueOf?_eq, schema, values, Schema.append, lastPlace?_append]
  cases behind : lastPlace? name u.schema.columns with
  | some j =>
    show (t.values ++ u.values)[t.schema.columns.length + j]? = u.values[j]?
    rw [← t.length_values, List.getElem?_append_right (Nat.le_add_right _ j),
      Nat.add_sub_cancel_left]
  | none =>
    cases before : lastPlace? name t.schema.columns with
    | none => rfl
    | some i =>
      obtain ⟨c, there, -⟩ := (isLast_of_lastPlace? before).1
      have short : i < t.values.length := by
        rw [t.length_values]
        exact (List.getElem?_eq_some_iff.1 there).1
      exact List.getElem?_append_left short

theorem schema_of_relabel (relabelled : t.relabel s = .ok w) : w.schema = s := by
  unfold relabel at relabelled
  split at relabelled <;> cases relabelled
  rfl

/-- **What a name finds under an alias.** -/
theorem relabel_aliased (is : t.schema = s) (label : String) :
    ∃ w, t.relabel (s.aliased label) = .ok w ∧ w.values = t.values ∧ w.record = t.record
      ∧ ∀ name, w.valueOf? (label ++ "." ++ name) = t.valueOf? name := by
  subst is
  refine ⟨_, dif_pos (t.schema.sameLayout_aliased label), rfl, rfl, fun name => ?_⟩
  rw [valueOf?_eq, valueOf?_eq]
  exact congrArg (Option.bind · _) (lastPlace?_aliased label)

end Tuple

namespace Heading

variable {h k l : Heading}

/-! ## What holds of headings that are built -/

/-- **In a row, a name finds the value at the place that a heading gives for it**, and nothing if
the heading gives none. -/
structure Locates (h : Heading) (t : Tuple) : Prop where
  value : ∀ name, t.valueOf? name = (h.place? name).bind (t.values[·]?)
  /-- There is a value at every place that is given. -/
  within : ∀ name i, h.place? name = some i → i < t.values.length

/-- **A heading whose places, index and size are those of its columns**, and by which the rows
under its schema are read. -/
structure Exact (h : Heading) : Prop where
  /-- A column knows where it stands. -/
  placed : ∀ (i : Nat) (c : PlacedColumn), h.columns[i]? = some c → c.place = i
  /-- A row takes as many bytes as its columns together. -/
  rowSize : h.rowSize = Schema.sizeOf h.schema.columns
  /-- A name names the last column that it occurs at. -/
  last : ∀ name i, h.place? name = some i ↔ IsLast name h.schema.columns i
  /-- It names none if it does not occur. -/
  absent : ∀ name, h.place? name = none ↔ ∀ c ∈ h.schema.columns, c.name ≠ name
  /-- Rows are read by it. -/
  rows : ∀ t : Tuple, t.schema = h.schema → h.Locates t

/-- **What two headings put together hold**, and rows of theirs that are put together. -/
structure Appends (h k : Heading) : Prop where
  columns : (h.append k).schema.columns = h.schema.columns ++ k.schema.columns
  width : (h.append k).width = h.width + k.width
  rowSize : (h.append k).rowSize = h.rowSize + k.rowSize
  /-- A name names a column of the right heading, which stands behind the left one, or else of the
  left one. -/
  place? : ∀ name, (h.append k).place? name
    = ((k.place? name).map (h.width + ·)).or (h.place? name)
  /-- Rows can be put together if the values of both fit. The values are those of the left row and
  then those of the right one, and a name finds the one at the place that it names in both
  headings put together: what it finds in the right row, if it names a column there, and else what
  it finds in the left one. -/
  rows : ∀ t u : Tuple, t.schema = h.schema → u.schema = k.schema →
    ((∃ w, t.append u (h.append k).schema = .ok w) ↔ h.schema.Admits t ∧ k.schema.Admits u)
      ∧ ∀ w, t.append u (h.append k).schema = .ok w →
        w.values = t.values ++ u.values ∧ (h.append k).Locates w ∧ ∀ name,
          w.valueOf? name = if (k.place? name).isSome then u.valueOf? name else t.valueOf? name

/-- **What a heading holds under an alias**, and rows that are put under it. -/
structure Aliases (h : Heading) (label : String) : Prop where
  layout : h.sameLayout (h.aliased label) = true
  width : (h.aliased label).width = h.width
  rowSize : (h.aliased label).rowSize = h.rowSize
  place? : ∀ name, (h.aliased label).place? (label ++ "." ++ name) = h.place? name
  /-- A row keeps its values and its record under the alias, and a name finds the one at the place
  that it names there: under the alias, what it found before. -/
  rows : ∀ t : Tuple, t.schema = h.schema →
    ∃ w, t.relabel (h.aliased label).schema = .ok w ∧ w.values = t.values ∧ w.record = t.record
      ∧ (h.aliased label).Locates w ∧ ∀ name, w.valueOf? (label ++ "." ++ name) = t.valueOf? name

/-- **What is picked from a heading.** -/
structure Projects (h : Heading) : Prop where
  /-- Columns can be picked if there are columns at all places. -/
  defined : ∀ places, (h.project? places).isSome = true ↔ ∀ i ∈ places, i < h.width
  /-- They are the columns at these places. -/
  columns : ∀ places k, h.project? places = some k →
    List.Forall₂ (fun i c => h.schema.columns[i]? = some c) places k.schema.columns
  /-- To pick from what is picked is to pick once. -/
  again : ∀ places places' k, h.project? places = some k →
    k.project? places' = (places'.mapM (places[·]?)).bind h.project?

section

variable (s s' : Schema)

theorem locates_heading {t : Tuple} (is : t.schema = s) : s.heading.Locates t where
  value name := by rw [s.place?_heading, Tuple.valueOf?_eq, is]
  within name i named := by
    rw [s.place?_heading] at named
    obtain ⟨c, there, -⟩ := (isLast_of_lastPlace? named).1
    rw [t.length_values, is]
    exact (List.getElem?_eq_some_iff.1 there).1

theorem exact_heading : s.heading.Exact where
  placed i c there := by
    rw [s.column?_heading] at there
    obtain ⟨d, -, rfl⟩ := Option.map_eq_some_iff.1 there
    rfl
  rowSize := by rw [s.rowSize_heading, s.schema_heading, Schema.rowSize]
  last name i := by rw [s.place?_heading, s.schema_heading, lastPlace?_eq_some_iff]
  absent name := by rw [s.place?_heading, s.schema_heading, lastPlace?_eq_none_iff]
  rows t is := locates_heading s (is.trans s.schema_heading)

theorem appends_heading : s.heading.Appends s'.heading where
  columns := by
    rw [append_eq, Schema.schema_heading, Schema.schema_heading, Schema.schema_heading,
      Schema.append]
  width := by
    rw [append_eq, Schema.schema_heading, Schema.schema_heading, Schema.width_heading,
      Schema.width_heading, Schema.width_heading, Schema.append, List.length_append]
  rowSize := by
    rw [append_eq, Schema.schema_heading, Schema.schema_heading, Schema.rowSize_heading,
      Schema.rowSize_heading, Schema.rowSize_heading, Schema.rowSize_append]
  place? name := by
    rw [append_eq, Schema.schema_heading, Schema.schema_heading, Schema.place?_heading,
      Schema.place?_heading, Schema.place?_heading, Schema.width_heading, Schema.append,
      lastPlace?_append]
  rows t u left right := by
    rw [Schema.schema_heading] at left right
    rw [append_eq, Schema.schema_heading, Schema.schema_heading, Schema.schema_heading]
    have length : t.values.length = s.columns.length := left ▸ t.length_values
    refine ⟨⟨fun ⟨w, made⟩ => (Tuple.append_ok length made).2.2,
      fun ⟨fits, fits'⟩ => ⟨_, (Tuple.append_of_admits fits fits').1⟩⟩, fun w made => ?_⟩
    obtain ⟨schema, values, -, -⟩ := Tuple.append_ok length made
    refine ⟨values, locates_heading _ schema, fun name => ?_⟩
    rw [Schema.place?_heading]
    exact Tuple.valueOf?_append left right made

theorem aliases_heading (label : String) : s.heading.Aliases label where
  layout := by
    rw [sameLayout_eq, aliased_eq, Schema.schema_heading, Schema.schema_heading]
    exact s.sameLayout_aliased label
  width := by
    rw [aliased_eq, Schema.schema_heading, Schema.width_heading, Schema.width_heading,
      Schema.aliased, List.length_map]
  rowSize := by
    rw [aliased_eq, Schema.schema_heading, Schema.rowSize_heading, Schema.rowSize_heading]
    exact (Schema.rowSize_congr (s.sameLayout_aliased label)).symm
  place? name := by
    rw [aliased_eq, Schema.schema_heading, Schema.place?_heading, Schema.place?_heading,
      Schema.aliased, lastPlace?_aliased]
  rows t is := by
    rw [Schema.schema_heading] at is
    rw [aliased_eq, Schema.schema_heading, Schema.schema_heading]
    obtain ⟨w, relabelled, values, record, found⟩ := Tuple.relabel_aliased is label
    exact ⟨w, relabelled, values, record, locates_heading _ (Tuple.schema_of_relabel relabelled),
      found⟩

end

theorem projects (h : Heading) : h.Projects where
  defined places := by
    rw [project?_eq, Option.isSome_map, isSome_mapM_iff]
    simp [width, schema]
  columns places k picked := by
    rw [project?_eq] at picked
    obtain ⟨cs, found, rfl⟩ := Option.map_eq_some_iff.1 picked
    rw [Schema.schema_heading]
    exact mapM_eq_some_iff.1 found
  again places places' k picked := by
    rw [project?_eq] at picked
    obtain ⟨cs, found, rfl⟩ := Option.map_eq_some_iff.1 picked
    have columns : (cs[·]?) = fun j => (places[j]?).bind (h.schema.columns[·]?) :=
      funext fun j => getElem?_mapM found j
    rw [project?_eq, Schema.schema_heading, columns, mapM_bind, Option.map_bind]
    exact congrArg (Option.bind _) (funext fun _ => project?_eq.symm)

/-- **The algebra of headings.** A heading that was built in any way knows the places, the size
and the names of its columns. To put headings together is associative, adds up their columns and
bytes, and lets a name name a column of the right heading before one of the left. An alias is
seen through, and to pick twice is to pick once. In a row, as it is, put together with another one
or under an alias, a name finds the value at the place that the heading gives for it. -/
theorem Built.algebra (left : h.Built) (middle : k.Built) (right : l.Built) :
    h.Exact ∧ h.Appends k ∧ (h.append k).append l = h.append (k.append l)
      ∧ (∀ label, h.Aliases label) ∧ h.Projects := by
  rw [← left.heading_schema, ← middle.heading_schema, ← right.heading_schema]
  refine ⟨exact_heading _, appends_heading _ _, ?_, aliases_heading _, projects _⟩
  simp only [append_eq, Schema.schema_heading, Schema.append, List.append_assoc]

/-- A heading in which a name occurs twice, two of its columns in the other order, and all of them
under an alias; a row of the first, put together with a row of the second, and under the alias. -/
theorem Built.algebra_repeated :
    let h : Heading := .new [⟨⟨"id", .integer⟩, 7⟩, ⟨⟨"n", .bigint⟩, 7⟩, ⟨⟨"id", .boolean⟩, 7⟩]
    let k : Heading := .new [⟨⟨"id", .boolean⟩, 2⟩, ⟨⟨"id", .integer⟩, 0⟩]
    let l : Heading := h.aliased "t"
    let t : Tuple := ⟨h.schema, [.int 1, .big 2, .bool true], none, rfl⟩
    let u : Tuple := ⟨k.schema, [.bool false, .int 3], none, rfl⟩
    h.Built ∧ h.project? [2, 0] = some k ∧ l.Built
      ∧ h.place? "id" = some 2 ∧ k.place? "id" = some 1 ∧ k.place? "n" = none
      ∧ (h.append k).place? "id" = some 4 ∧ (h.append k).place? "n" = some 1
      ∧ l.place? "t.id" = some 2 ∧ (h.append k).rowSize = 18
      ∧ t.valueOf? "id" = some (.bool true)
      ∧ (∃ w, t.append u (h.append k).schema = .ok w
        ∧ w.valueOf? "id" = some (.int 3) ∧ w.valueOf? "n" = some (.big 2))
      ∧ (∃ w, t.relabel l.schema = .ok w
        ∧ w.valueOf? "t.id" = some (.bool true) ∧ w.valueOf? "id" = none)
      ∧ (h.Exact ∧ h.Appends k ∧ (h.append k).append l = h.append (k.append l)
        ∧ (∀ label, h.Aliases label) ∧ h.Projects) := by
  intro h k l t u
  have built : h.Built := .new _
  have picked : h.project? [2, 0] = some k := by decide
  exact ⟨built, picked, built.aliased "t", by decide, by decide, by decide, by decide, by decide,
    by decide, by decide, by decide, ⟨_, rfl, by decide, by decide⟩, ⟨_, rfl, by decide, by decide⟩,
    Built.algebra built (built.project picked) (built.aliased "t")⟩

end Heading

end Tablespace
