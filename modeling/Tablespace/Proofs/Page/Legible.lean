import Tablespace.Proofs.Codec.Repair
import Tablespace.Proofs.Operator.Groups
import Tablespace.Proofs.Page.Remains
import Tablespace.Proofs.Page.Slots

/-!
# Rows that can be read but not be stored

Every slot in use is read as a row, whatever its bytes are: reading never says
that they are malformed. What comes out is a row of the page's schema, but not
always one whose values fit their columns. A truth value and a number fit in any
case. A text may not: it is cut to the room of its column first and repaired
then, and each flaw that is shorter than its replacement makes it longer. Bytes
are **legible** (`Page.Legible`) if no text among them becomes too long in this
way, which is a count of flaws.

A row that is read from legible bytes can be used like any other
(`Tuple.Accepted`): it has bytes, goes into a page, is joined and makes a group.
One that is not is refused at each of these places, for the first of its texts
that is too long (`Tuple.Refused`).
-/

namespace Tablespace

namespace Value

/-- **Bytes that are read as a value of the column's type.** Those of a text are
not too many for the column, with three for each flaw. -/
def Legible : DataType → List UInt8 → Prop
  | .boolean, _ | .integer, _ | .bigint, _ => True
  | .char room, bs =>
    let text := (bs.drop 4).take (min (Word.ofBytes (bs.take 4)) room.toNat)
    text.length + 3 * (Text.flaws text).length ≤ room.toNat + (Text.flaws text).sum

/-- **Bytes are legible if the value that is read from them fits.** -/
theorem fits_ofBytes_iff (type : DataType) (bs : List UInt8) :
    (ofBytes type bs).fits type = true ↔ Legible type bs := by
  cases type with
  | boolean | integer | bigint => exact iff_of_true rfl trivial
  | char room =>
    rw [ofBytes, fits, decide_eq_true_iff, Legible]
    generalize (bs.drop 4).take (min (Word.ofBytes (bs.take 4)) room.toNat) = text
    have cost := Text.length_bytes_ofBytes text
    omega

/-- What is read and does not fit is a text that is too long. -/
theorem text_of_unfit {type : DataType} {bs : List UInt8}
    (unfit : (ofBytes type bs).fits type = false) :
    ∃ s room, type = .char room ∧ ofBytes type bs = .str s ∧
      room.toNat < (Text.bytes s).length := by
  cases type with
  | boolean | integer | bigint => cases unfit
  | char room => exact ⟨_, room, rfl, rfl, Nat.not_le.1 (of_decide_eq_false unfit)⟩

end Value

namespace Tuple

/-- **Bytes that are read as a row whose values fit.** -/
def Legible : List Column → List UInt8 → Prop
  | [], _ => True
  | c :: cs, bs => Value.Legible c.type bs ∧ Legible cs (bs.drop c.type.size)

/-- **Bytes are legible if the values that are read from them fit.** -/
theorem fits_readColumns_iff {columns : List Column} {bs : List UInt8} :
    (∀ cv ∈ columns.zip (readColumns columns bs), cv.2.fits cv.1.type = true)
      ↔ Legible columns bs := by
  induction columns generalizing bs with
  | nil => exact iff_of_true (fun _ there => nomatch there) trivial
  | cons c cs ih =>
    rw [readColumns, List.zip_cons_cons, List.forall_mem_cons, Value.fits_ofBytes_iff, ih, Legible]

/-- Each value of a row that is read is one that is read. -/
theorem exists_of_getElem?_zip_readColumns {columns : List Column} {bs : List UInt8} {n : Nat}
    {column : Column} {value : Value}
    (here : (columns.zip (readColumns columns bs))[n]? = some (column, value)) :
    ∃ rest, value = Value.ofBytes column.type rest := by
  induction columns generalizing bs n with
  | nil => cases here
  | cons c cs ih =>
    cases n with
    | zero =>
      cases here
      exact ⟨bs, rfl⟩
    | succ n => exact ih here

/-- What is written of a row that is canonical is read as a row that fits. -/
theorem legible_of_canonical {columns : List Column} {bs : List UInt8}
    (enough : Schema.sizeOf columns ≤ bs.length) (canonical : Canonical columns bs) :
    Legible columns bs := by
  have written := (encodeColumns_readColumns_iff enough).2 canonical
  rw [← fits_readColumns_iff]
  by_contra unfit
  let row : Tuple := ⟨⟨columns⟩, readColumns columns bs, none, length_readColumns ..⟩
  have stops : ∃ n column value, row.StopsAt n column value :=
    exists_stopsAt fun conforms => unfit conforms.fits
  obtain ⟨n, column, value, stops⟩ := stops
  obtain ⟨front, -, whole⟩ := encodeColumns_of_unfit stops.here stops.unfit stops.before
  cases whole.symm.trans written

/-! ## Rows that fit -/

/-- A row conforms if its schema admits it. -/
theorem conforms_iff_admits {row : Tuple} : row.Conforms ↔ row.schema.Admits row := by
  constructor
  · intro conforms
    exact (admits_of_ofValues conforms).2
  · intro admits
    exact ofValues_of_forall₂ admits

/-- **A row that is accepted** wherever rows of its schema are. -/
structure Accepted (row : Tuple) : Prop where
  /-- It has bytes. -/
  encode : ∃ bs, row.encode = .ok bs ∧ bs.length = row.schema.rowSize
  /-- It goes into the first free slot of a page of its layout. -/
  insert : ∀ (q : Page) (slot : Nat), row.schema.sameLayout q.schema = true →
    q.firstFree? = some slot →
      (q.insert row).1 = .ok (row.located (some ⟨q.id, UInt16.ofNat slot⟩))
  /-- Another row can be put behind it, -/
  before : ∀ (schema : Schema) (other : Tuple), schema.Admits other →
    ∃ both, row.append other (row.schema.append schema) = .ok both
  /-- or before it. -/
  behind : ∀ (schema : Schema) (other : Tuple), schema.Admits other →
    ∃ both, other.append row (schema.append row.schema) = .ok both
  /-- It belongs to a group, which has a row in the result. -/
  group : ∀ (fn : AggregateFn) (column : Nat) (group : Option Nat) (a : Aggregation),
    Aggregation.ofSchema fn column group row.schema = .ok a →
      ∃ key, a.key row = .ok key ∧ ∀ r, ∃ out, a.results [(key, r)] = .ok [out]

/-- **A row that conforms is accepted.** -/
theorem Conforms.accepted {row : Tuple} (conforms : row.Conforms) : row.Accepted where
  encode := by
    obtain ⟨bs, encoded, -, size, -⟩ := conforms.encode
    exact ⟨bs, encoded, size⟩
  insert q slot layout free := (Page.insert_of_firstFree? conforms layout free).1
  before schema other admits :=
    ⟨_, (append_of_admits (conforms_iff_admits.1 conforms) admits).1⟩
  behind schema other admits :=
    ⟨_, (append_of_admits admits (conforms_iff_admits.1 conforms)).1⟩
  group fn column group a h := by
    refine ⟨_, Aggregation.key_eq h row.length_values, fun r => ?_⟩
    obtain ⟨length, out⟩ :=
      Aggregation.ofValues_of_admits h (conforms_iff_admits.1 conforms) (r.result a.fn)
    rw [Aggregation.results_singleton, out]
    exact ⟨_, rfl⟩

/-! ## Rows that do not -/

/-- **A row that is refused** wherever rows of its schema are wanted, for the
first of its texts that is too long. -/
structure Refused (row : Tuple) (n : Nat) (column : Column) (s : String) (room : UInt16) :
    Prop where
  stops : row.StopsAt n column (.str s)
  type : column.type = .char room
  long : room.toNat < (Text.bytes s).length
  /-- It has no bytes, -/
  encode : row.encode = .error (.valueTooLong (Text.bytes s).length room.toNat)
  /-- goes into no page, -/
  insert : ∀ (q : Page) (slot : Nat), row.schema.sameLayout q.schema = true →
    q.firstFree? = some slot →
      (q.insert row).1 = .error (.valueTooLong (Text.bytes s).length room.toNat)
  /-- stands before no other row -/
  before : ∀ (schema : Schema) (other : Tuple), schema.Admits other →
    row.append other (row.schema.append schema)
      = .error (.mismatch (.columnValue column.name column.type (.str s)))
  /-- and behind none, -/
  behind : ∀ (schema : Schema) (other : Tuple), schema.Admits other →
    other.append row (schema.append row.schema)
      = .error (.mismatch (.columnValue column.name column.type (.str s)))
  /-- and makes a group that has no row in the result. -/
  group : ∀ (fn : AggregateFn) (c : Nat) (a : Aggregation),
    Aggregation.ofSchema fn c (some n) row.schema = .ok a →
      ∃ key, a.key row = .ok key ∧ ∀ r, a.results [(key, r)]
        = .error (.mismatch (.columnValue column.name column.type (.str s)))

/-- Values are refused for the first that does not fit. -/
theorem ofValues_of_find? {schema : Schema} {values : List Value} {column : Column} {value : Value}
    (length : values.length = schema.columns.length)
    (found : (schema.columns.zip values).find? (fun cv => !cv.2.fits cv.1.type)
      = some (column, value)) :
    ofValues schema values
      = .error (.mismatch (.columnValue column.name column.type value)) := by
  rw [ofValues, dif_pos length, found]

/-- The first value of a row that does not fit is where it stops. -/
theorem StopsAt.find? {row : Tuple} {n : Nat} {column : Column} {value : Value}
    (stops : row.StopsAt n column value) :
    (row.schema.columns.zip row.values).find? (fun cv => !cv.2.fits cv.1.type)
      = some (column, value) := by
  obtain ⟨there, here⟩ := List.getElem?_eq_some_iff.1 stops.here
  refine List.find?_eq_some_iff_getElem.2 ⟨by simp [stops.unfit], n, there, here, fun i early => ?_⟩
  have fits := stops.before _ (List.mem_take_iff_getElem.2 ⟨i, by omega, rfl⟩)
  rw [fits]
  rfl

/-- **A row that was read and does not fit is refused.** -/
theorem StopsAt.refused {row : Tuple} {n : Nat} {column : Column} {s : String} {room : UInt16}
    (stops : row.StopsAt n column (.str s)) (type : column.type = .char room) :
    row.Refused n column s room := by
  obtain ⟨inColumns, inValues⟩ := List.getElem?_zip_eq_some.1 stops.here
  obtain ⟨front, before, whole⟩ := encodeColumns_of_unfit stops.here stops.unfit stops.before
  have misfit : (Value.str s).misfit column.type = .valueTooLong (Text.bytes s).length room.toNat := by
    rw [type]
    rfl
  have unfit := stops.unfit
  rw [type] at unfit
  refine ⟨stops, type, Nat.not_le.1 (of_decide_eq_false unfit), ?_, ?_, ?_, ?_, ?_⟩
  · rw [encode, whole, misfit]
  · intro q slot layout free
    have spills : q.Spills row slot front := ⟨layout, free, n, column, .str s, stops, before⟩
    obtain ⟨n', column', value', stops', refused⟩ := spills.insert
    -- a row stops at one place only
    cases stops'.find?.symm.trans stops.find?
    rw [refused, misfit]
  · intro schema other admits
    refine ofValues_of_find? ?_ ?_
    · rw [List.length_append, row.length_values, ← admits.length_eq]
      exact List.length_append.symm
    · rw [Schema.append, List.zip_append row.length_values.symm, List.find?_append, stops.find?]
      rfl
  · intro schema other admits
    have fits : (schema.columns.zip other.values).find? (fun cv => !cv.2.fits cv.1.type) = none :=
      List.find?_eq_none.2 fun cv there => by simp [(List.forall₂_iff_zip.1 admits).2 there]
    refine ofValues_of_find? ?_ ?_
    · rw [List.length_append, row.length_values, ← admits.length_eq]
      exact List.length_append.symm
    · rw [Schema.append, List.zip_append admits.length_eq, List.find?_append, fits, stops.find?]
      rfl
  · intro fn c a made
    refine ⟨_, Aggregation.key_eq made row.length_values, fun r => ?_⟩
    obtain ⟨reduced, -, -, -, rfl⟩ := Aggregation.ofSchema_eq_ok made
    rw [Aggregation.keyOf]
    have key : row.value? n = some (.str s) := inValues
    have makes : row.schema.column? n = some column := inColumns
    have refused (result : Column) (value : Value) : ofValues ⟨[column, result]⟩ [.str s, value]
        = .error (.mismatch (.columnValue column.name column.type (.str s))) :=
      ofValues_of_find? rfl (List.find?_cons_of_pos (by rw [stops.unfit]; rfl))
    rw [Aggregation.results_singleton, Option.bind_some, Option.bind_some, key, makes]
    exact congrArg (Except.map fun row => [row]) (refused ..)

end Tuple

namespace Page

/-- **Whether a slot of the page is read as a row that fits.** -/
def Legible (p : Page) (slot : Nat) : Prop :=
  Tuple.Legible p.schema.columns (p.slotBytes slot)

/-- **Every slot in use is read as a row**, in its place and under the columns of
the page, whatever its bytes are. The values of the row fit just if the bytes are
legible, which bytes that were written are. Then the row is accepted wherever
rows are; and if they do not fit it is refused at each of these places. -/
theorem tupleAt_of_used {p : Page} {slot : Nat} (used : p.isUsed slot = true) :
    ∃ row, p.tupleAt slot = .ok (some row) ∧ row.schema = p.schema ∧
      row.record = some ⟨p.id, UInt16.ofNat slot⟩ ∧
      (row.Conforms ↔ p.Legible slot) ∧
      (Tuple.Canonical p.schema.columns (p.slotBytes slot) → p.Legible slot) ∧
      (p.Legible slot → row.Accepted) ∧
      (¬p.Legible slot → ∃ n column s room, row.Refused n column s room) := by
  have there := lt_slotCount_of_isUsed used
  have enough : Schema.sizeOf p.schema.columns ≤ (p.slotBytes slot).length :=
    Nat.le_of_eq (length_slotBytes there).symm
  let row : Tuple := ⟨p.schema, Tuple.readColumns p.schema.columns (p.slotBytes slot),
    some ⟨p.id, UInt16.ofNat slot⟩, Tuple.length_readColumns ..⟩
  have conforms : row.Conforms ↔ p.Legible slot := by
    rw [Legible, ← Tuple.fits_readColumns_iff]
    exact ⟨fun conforms => conforms.fits, fun fits => Tuple.conforms_of_fits fits⟩
  refine ⟨row, ?_, rfl, rfl, conforms, Tuple.legible_of_canonical enough,
    fun legible => (conforms.2 legible).accepted, fun illegible => ?_⟩
  · rw [tupleAt_eq_ok there, if_pos used]
  · obtain ⟨n, column, value, stops⟩ := Tuple.exists_stopsAt (mt conforms.1 illegible)
    obtain ⟨rest, rfl⟩ := Tuple.exists_of_getElem?_zip_readColumns stops.here
    obtain ⟨s, room, type, text, -⟩ := Value.text_of_unfit stops.unfit
    rw [text] at stops
    exact ⟨n, column, s, room, stops.refused type⟩

/-- A page with two texts of one byte. One begins with a byte that is no text and
is read as a character of three; the other claims to be longer than its column
and is cut. -/
def letters : Page where
  id := ⟨⟨1⟩, 0⟩
  schema := ⟨[⟨"letter", .char 1⟩]⟩
  image := #[3, 1, 0, 0, 0, 0xFF, 9, 0, 0, 0, 0x41]
  dirtier := none
  slots_pos := by decide
  slots_le := by decide

/-- The first is read, has no bytes and cannot make a group; the second is not
what writing gives, and is read and has bytes. -/
theorem tupleAt_of_used_letters :
    (letters.isUsed 0 = true ∧ ¬letters.Legible 0 ∧
      ∃ row, letters.tupleAt 0 = .ok (some row) ∧ row.values = [.str "\uFFFD"] ∧
        row.encode = .error (.valueTooLong 3 1) ∧
        ∀ a, Aggregation.ofSchema .count 0 (some 0) row.schema = .ok a →
          ∃ key, a.key row = .ok key ∧ ∀ r, a.results [(key, r)]
            = .error (.mismatch (.columnValue "letter" (.char 1) (.str "\uFFFD")))) ∧
    letters.isUsed 1 = true ∧ letters.Legible 1 ∧
      ¬Tuple.Canonical letters.schema.columns (letters.slotBytes 1) ∧
      ∃ row, letters.tupleAt 1 = .ok (some row) ∧ row.values = [.str "A"] ∧
        ∃ bs, row.encode = .ok bs ∧ bs.length = row.schema.rowSize := by
  have first : letters.isUsed 0 = true := by decide
  have second : letters.isUsed 1 = true := by decide
  have illegible : ¬letters.Legible 0 := by
    rintro ⟨short, -⟩
    have flaws : Text.flaws [0xFF] = [1] := by decide +kernel
    have count : 1 + 3 * (Text.flaws [0xFF]).length ≤ 1 + (Text.flaws [0xFF]).sum := short
    rw [flaws] at count
    exact absurd count (by decide)
  have legible : letters.Legible 1 := by
    refine ⟨?_, trivial⟩
    have flaws : Text.flaws [0x41] = [] := by decide +kernel
    show 1 + 3 * (Text.flaws [0x41]).length ≤ 1 + (Text.flaws [0x41]).sum
    rw [flaws]
    decide
  refine ⟨⟨first, illegible, ?_⟩, second, legible, ?_, ?_⟩
  · obtain ⟨row, read, -, -, -, -, -, refused⟩ := tupleAt_of_used first
    have is : letters.tupleAt 0 = .ok (some ⟨letters.schema, [.str "\uFFFD"],
      some ⟨letters.id, 0⟩, rfl⟩) := by decide +kernel
    obtain rfl := Option.some.inj (Except.ok.inj (is.symm.trans read))
    obtain ⟨n, column, s, room, refused⟩ := refused illegible
    have here := refused.stops.here
    cases n with
    | succ n => cases here
    | zero =>
      cases here
      cases refused.type
      exact ⟨_, read, rfl, refused.encode, refused.group .count 0⟩
  · rintro ⟨⟨fits, -⟩, -⟩
    exact absurd fits (by decide)
  · obtain ⟨row, read, -, -, -, -, accepted, -⟩ := tupleAt_of_used second
    have is : letters.tupleAt 1 = .ok (some ⟨letters.schema, [.str "A"],
      some ⟨letters.id, 1⟩, rfl⟩) := by decide +kernel
    obtain rfl := Option.some.inj (Except.ok.inj (is.symm.trans read))
    exact ⟨_, read, rfl, (accepted legible).encode⟩

end Page

end Tablespace
