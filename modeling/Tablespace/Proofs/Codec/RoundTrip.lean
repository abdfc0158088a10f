import Tablespace.Proofs.Codec.Tuple

/-!
# Rows and their bytes

Writing a row that conforms and reading it back gives the row as its columns
keep it. In the other direction reading is more lenient than writing: every
stretch of bytes that is long enough is some row, but not every such stretch
is what writing makes of that row. It is if it is **canonical**, column by
column (`Value.Canonical`): a truth value is zero or one, and a text has a
length within the room of its column, bytes that are UTF-8, and zeros behind
them. A length beyond the room is read as the room and written as that; a
piece that is no text is read as the replacement character and written as its
three bytes, or not at all if they are too many for the column; padding is
not read at all. So none of these comes back as it was.

`Tuple.readColumns_encodeColumns` is the first direction for the columns,
`Tuple.encodeColumns_readColumns_iff` the second. `Tuple.round_trip` puts the
two together, for rows as they are made and as they are read.
-/

namespace Tablespace

namespace Value

/-- **The bytes that writing can have given** a column of a type. -/
def Canonical : DataType → List UInt8 → Prop
  | .boolean, bs => bs.headD 0 = 0 ∨ bs.headD 0 = 1
  | .integer, _ | .bigint, _ => True
  | .char room, bs =>
    let length := Word.ofBytes (bs.take 4)
    let text := bs.drop 4
    length ≤ room.toNat ∧ Text.IsUtf8 (text.take length) ∧
      ∀ b ∈ (text.take room.toNat).drop length, b = 0

/-- Only the bytes of the column are read. -/
theorem ofBytes_take (type : DataType) (bs : List UInt8) :
    ofBytes type (bs.take type.size) = ofBytes type bs := by
  cases type with
  | boolean => cases bs <;> rfl
  | integer | bigint => rw [ofBytes, ofBytes, List.take_take]; rfl
  | char room =>
    have lead : min 4 (4 + room.toNat) = 4 := Nat.min_eq_left (Nat.le_add_right ..)
    rw [ofBytes, ofBytes, DataType.size, List.take_take, lead, List.drop_take, List.take_take,
      Nat.add_sub_cancel_left, Nat.min_assoc, Nat.min_self]

theorem wordOfInt_ofNat {n : Nat} (h : n < Word.count 4) :
    wordOfInt (UInt32.ofNat n).toInt32 = n := by
  rw [wordOfInt, UInt32.toUInt32_toInt32, UInt32.toNat_ofNat']
  exact Nat.mod_eq_of_lt h

theorem wordOfBig_ofNat {n : Nat} (h : n < Word.count 8) :
    wordOfBig (UInt64.ofNat n).toInt64 = n := by
  rw [wordOfBig, UInt64.toUInt64_toInt64, UInt64.toNat_ofNat']
  exact Nat.mod_eq_of_lt h

/-- An integer is written as the word that it was read from. -/
theorem bytes_ofBytes_take {width : Nat} {bs : List UInt8} (length : bs.length = width) :
    Word.bytes width (Word.ofBytes (bs.take width)) = bs ∧
      Word.ofBytes (bs.take width) < Word.count width := by
  subst length
  rw [List.take_length]
  exact ⟨Word.bytes_ofBytes bs, Word.ofBytes_lt_count bs⟩

/-- Padding that is zero, written out. -/
theorem eq_replicate_of_zero {bs : List UInt8} (zero : ∀ b ∈ bs, b = 0) :
    bs = List.replicate bs.length 0 :=
  List.eq_replicate_iff.2 ⟨rfl, zero⟩

/-- Reading a text and writing it again gives the bytes back just if they are
canonical. -/
theorem encode_ofBytes_char {room : UInt16} {bs : List UInt8}
    (length : bs.length = 4 + room.toNat) :
    (ofBytes (.char room) bs).encode (.char room) = .ok bs ↔ Canonical (.char room) bs := by
  have whole : bs = bs.take 4 ++ bs.drop 4 := (List.take_append_drop 4 bs).symm
  have head : (bs.take 4).length = 4 := by rw [List.length_take]; omega
  have behind : (bs.drop 4).length = room.toNat := by rw [List.length_drop]; omega
  rw [Canonical, ofBytes]
  generalize bs.take 4 = lead at *
  generalize bs.drop 4 = text at *
  subst whole
  rw [List.take_of_length_le (Nat.le_of_eq behind), encode]
  constructor
  · intro written
    split at written
    · rename_i fits
      rw [Except.ok.injEq, List.append_assoc] at written
      obtain ⟨words, texts⟩ := List.append_inj written (by rw [Word.length_bytes, head])
      generalize s : Text.ofBytes _ = read at *
      -- the length that was written is the length that was read
      have count : Word.ofBytes lead = (Text.bytes read).length := by
        have room_lt : room.toNat < Word.count 4 := Nat.lt_of_lt_of_le room.toNat_lt (by decide)
        rw [← words, Word.ofBytes_bytes, Nat.mod_eq_of_lt (by omega)]
      rw [count, Nat.min_eq_left fits] at s
      rw [count]
      refine ⟨fits, Text.isUtf8_iff.2 ⟨read, ?_⟩, ?_⟩
      · rw [← texts, List.take_left]
      · rw [← texts, List.drop_left]
        intro b padding
        exact (List.mem_replicate.1 padding).2
    · cases written
  · rintro ⟨fits, utf8, zero⟩
    rw [Nat.min_eq_left fits, Text.bytes_ofBytes_iff.2 utf8, List.length_take, behind,
      Nat.min_eq_left fits, if_pos fits]
    have padding := eq_replicate_of_zero zero
    rw [List.length_drop, behind] at padding
    have words := Word.bytes_ofBytes lead
    rw [head] at words
    rw [← padding, words, List.append_assoc, List.take_append_drop]

/-- **Reading a value and writing it again gives the bytes back just if they
are canonical.** -/
theorem encode_ofBytes_iff {type : DataType} {bs : List UInt8} (length : bs.length = type.size) :
    (ofBytes type bs).encode type = .ok bs ↔ Canonical type bs := by
  cases type with
  | boolean =>
    obtain ⟨b, rfl⟩ := List.length_eq_one_iff.1 length
    rw [ofBytes, encode, Canonical, Except.ok.injEq, List.headD_cons, List.cons.injEq]
    by_cases zero : b = 0
    · simp [zero]
    · simp [zero, @eq_comm _ 1 b]
  | integer =>
    rw [DataType.size] at length
    obtain ⟨back, small⟩ := bytes_ofBytes_take length
    rw [ofBytes, encode, wordOfInt_ofNat small, back]
    exact iff_of_true rfl trivial
  | bigint =>
    rw [DataType.size] at length
    obtain ⟨back, small⟩ := bytes_ofBytes_take length
    rw [ofBytes, encode, wordOfBig_ofNat small, back]
    exact iff_of_true rfl trivial
  | char room => exact encode_ofBytes_char length

end Value

namespace Tuple

/-- **The bytes that writing can have given** a row. -/
def Canonical : List Column → List UInt8 → Prop
  | [], _ => True
  | c :: cs, bs => Value.Canonical c.type (bs.take c.type.size) ∧ Canonical cs (bs.drop c.type.size)

/-- **Reading the columns of a row and writing them again gives the bytes back
just if they are canonical.** -/
theorem encodeColumns_readColumns_iff {columns : List Column} {bs : List UInt8}
    (enough : Schema.sizeOf columns ≤ bs.length) :
    encodeColumns columns (readColumns columns bs) = (bs.take (Schema.sizeOf columns), none) ↔
      Canonical columns bs := by
  induction columns generalizing bs with
  | nil => exact iff_of_true rfl trivial
  | cons c cs ih =>
    rw [Schema.sizeOf] at enough ⊢
    have length : (bs.take c.type.size).length = c.type.size := by
      rw [List.length_take]
      omega
    have head := Value.encode_ofBytes_iff length
    have tail := @ih (bs.drop c.type.size) (by rw [List.length_drop]; omega)
    rw [Value.ofBytes_take] at head
    rw [readColumns, encodeColumns, Canonical, ← head, ← tail, List.take_add]
    cases h : (Value.ofBytes c.type bs).encode c.type with
    | error cause => simp
    | ok first =>
      have size := (Value.ofBytes_encode h []).1
      generalize encodeColumns cs _ = rest
      obtain ⟨more, ended⟩ := rest
      dsimp only
      rw [Prod.mk.injEq, Prod.mk.injEq, Except.ok.injEq]
      constructor
      · rintro ⟨same, rfl⟩
        obtain ⟨left, right⟩ := List.append_inj same (size.trans length.symm)
        exact ⟨left, right, rfl⟩
      · rintro ⟨rfl, rfl, rfl⟩
        exact ⟨rfl, rfl⟩

/-- A row is encoded as its columns are, if they are written in full. -/
theorem encode_eq_ok_iff {t : Tuple} {bs : List UInt8} :
    t.encode = .ok bs ↔ encodeColumns t.schema.columns t.values = (bs, none) := by
  unfold encode
  split <;> rename_i written <;> rw [written] <;> simp

/-- Bytes that are too short are at fault at some column. -/
theorem exists_shortfall {columns : List Column} {length : Nat}
    (short : length < Schema.sizeOf columns) : ∃ cause, shortfall? columns length = some cause := by
  induction columns generalizing length with
  | nil => cases short
  | cons c cs ih =>
    rw [Schema.sizeOf] at short
    rw [shortfall?]
    split
    · exact ⟨_, rfl⟩
    · exact ih (by omega)

/-- Values that columns keep as they are: no 32-bit integer among them stands
in a 64-bit column. -/
theorem keep_eq_self {schema : Schema} {values : List Value}
    (length : values.length = schema.columns.length)
    (exact : ∀ cv ∈ schema.columns.zip values, cv.1.type = .bigint → ∀ n, cv.2 ≠ .int n) :
    schema.keep values = values := by
  obtain ⟨columns⟩ := schema
  rw [Schema.keep, Schema.layout]
  dsimp only at *
  induction columns generalizing values with
  | nil => rw [List.length_eq_zero_iff.1 length]; rfl
  | cons c cs ih =>
    cases values with
    | nil => cases length
    | cons v vs =>
      rw [List.map_cons, List.zipWith_cons_cons,
        ih (Nat.succ.inj length) fun cv there => exact cv (List.mem_cons_of_mem _ there)]
      congr 1
      have same := exact (c, v) List.mem_cons_self
      unfold Value.widen
      split
      · exact absurd rfl (same ‹_› _)
      · rfl

/-- A row that conforms, its bytes, and what becomes of a slot that it is
written over. -/
theorem Conforms.encode {t : Tuple} (h : t.Conforms) :
    ∃ bs, t.encode = .ok bs ∧ encodeColumns t.schema.columns t.values = (bs, none) ∧
      bs.length = t.schema.rowSize ∧
      ∀ slot : List UInt8, slot.length = t.schema.rowSize → t.overwrite slot = (bs, none) := by
  have full := encodeColumns_of_fits h.fits
  have size : (encodeColumns t.schema.columns t.values).1.length = t.schema.rowSize :=
    (readColumns_encodeColumns t.length_values full []).1
  have written : encodeColumns t.schema.columns t.values
      = ((encodeColumns t.schema.columns t.values).1, none) := Prod.ext rfl full
  refine ⟨_, encode_eq_ok_iff.2 written, written, size, ?_⟩
  intro slot length
  rw [Tuple.overwrite, if_pos length]
  dsimp only
  rw [full, List.drop_of_length_le (Nat.le_of_eq (length.trans size.symm)), List.append_nil]

/-- **Rows and their bytes.** A row that is made of values that fit has bytes,
exactly as many as a row takes; a slot it is written over holds just these;
and whatever stands behind them, they are read as the values that the columns
keep – as the row itself, if no 32-bit integer stands in a 64-bit column.
Bytes that are long enough are read as a row, whose bytes are the ones that
were read just if these are canonical. Bytes that are too short are refused. -/
theorem round_trip (schema : Schema) :
    (∀ values t, ofValues schema values = .ok t →
      ∃ bs, t.encode = .ok bs ∧ bs.length = schema.rowSize ∧
        (∀ slot : List UInt8, slot.length = schema.rowSize → t.overwrite slot = (bs, none)) ∧
        ∀ rest, ∃ u, decode schema (bs ++ rest) = .ok u ∧
          u.schema = schema ∧ u.values = schema.keep values ∧ u.record = none ∧
          ((∀ cv ∈ schema.columns.zip values, cv.1.type = .bigint → ∀ n, cv.2 ≠ .int n) →
            u.same t = true)) ∧
    (∀ bs : List UInt8, schema.rowSize ≤ bs.length →
      ∃ u, decode schema bs = .ok u ∧ u.schema = schema ∧
        (u.encode = .ok (bs.take schema.rowSize) ↔ Canonical schema.columns bs)) ∧
    ∀ bs : List UInt8, bs.length < schema.rowSize →
      ∃ cause, decode schema bs = .error (.mismatch cause) := by
  refine ⟨?_, ?_, ?_⟩
  · intro values t made
    have parts : t.schema = schema ∧ t.values = values ∧ t.record = none := by
      unfold ofValues at made
      split at made
      · split at made
        · cases made
        · cases made
          exact ⟨rfl, rfl, rfl⟩
      · cases made
    obtain ⟨rfl, rfl, nowhere⟩ := parts
    have conforms := conforms_of_ofValues made
    obtain ⟨bs, encoded, written, size, slots⟩ := conforms.encode
    refine ⟨bs, encoded, size, slots, fun rest => ?_⟩
    have back := (readColumns_encodeColumns t.length_values (encodeColumns_of_fits conforms.fits)
      rest).2
    rw [written] at back
    refine ⟨_, decode_eq_ok (by rw [List.length_append, size]; omega), rfl, back, rfl, ?_⟩
    intro exact
    have kept : readColumns t.schema.columns (bs ++ rest) = t.values :=
      back.trans (keep_eq_self t.length_values exact)
    rw [same, Bool.and_eq_true]
    exact ⟨decide_eq_true rfl, decide_eq_true kept⟩
  · intro bs enough
    refine ⟨_, decode_eq_ok enough, rfl, ?_⟩
    rw [encode_eq_ok_iff]
    exact encodeColumns_readColumns_iff enough
  · intro bs short
    obtain ⟨cause, found⟩ := exists_shortfall short
    refine ⟨cause, ?_⟩
    rw [decode, found]

end Tuple

/-- A schema with a column of each type. -/
def Schema.orders : Schema :=
  ⟨[⟨"paid", .boolean⟩, ⟨"item", .integer⟩, ⟨"total", .bigint⟩, ⟨"town", .char 6⟩]⟩

namespace Tuple

/-- An order whose total is a 32-bit integer; then bytes that are long enough,
the first of which is neither zero nor one; then bytes that are too short. -/
theorem round_trip_orders :
    (∃ t, ofValues .orders [.bool true, .int 7, .int (-300), .str "Köln"] = .ok t ∧
      ∃ bs, t.encode = .ok bs ∧ bs.length = Schema.orders.rowSize ∧
        (∀ slot : List UInt8, slot.length = Schema.orders.rowSize →
          t.overwrite slot = (bs, none)) ∧
        ∀ rest, ∃ u, decode .orders (bs ++ rest) = .ok u ∧ u.schema = .orders ∧
          u.values = [.bool true, .int 7, .big (-300), .str "Köln"] ∧ u.record = none) ∧
    (Schema.orders.rowSize ≤ (List.replicate 23 (2 : UInt8)).length ∧
      ∃ u, decode .orders (List.replicate 23 2) = .ok u ∧
        u.encode ≠ .ok ((List.replicate 23 2).take Schema.orders.rowSize)) ∧
    ((List.replicate 22 (0 : UInt8)).length < Schema.orders.rowSize ∧
      ∃ cause, decode .orders (List.replicate 22 0) = .error (.mismatch cause)) := by
  obtain ⟨written, read, refused⟩ := round_trip .orders
  refine ⟨?_, ⟨by decide, ?_⟩, by decide, refused _ (by decide)⟩
  · have made : ofValues .orders [.bool true, .int 7, .int (-300), .str "Köln"]
        = .ok ⟨.orders, [.bool true, .int 7, .int (-300), .str "Köln"], none, rfl⟩ := by
      rfl
    obtain ⟨bs, encoded, size, slots, back⟩ := written _ _ made
    refine ⟨_, made, bs, encoded, size, slots, fun rest => ?_⟩
    obtain ⟨u, decoded, schema, values, nowhere, -⟩ := back rest
    exact ⟨u, decoded, schema, values, nowhere⟩
  · obtain ⟨u, decoded, -, canonical⟩ := read (List.replicate 23 2) (by decide)
    refine ⟨u, decoded, fun same => ?_⟩
    have flag : (2 : UInt8) = 0 ∨ (2 : UInt8) = 1 := (canonical.1 same).1
    revert flag
    decide

end Tuple

end Tablespace
