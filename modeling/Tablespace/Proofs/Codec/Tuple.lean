import Tablespace.Tuple
import Tablespace.Proofs.Codec.Utf8

/-!
# Stored rows are read back

A value that was written into a column is read back as the column keeps it,
which is the value itself but for a 32-bit integer in a 64-bit column
(`Value.widen`). Column by column, the same holds of a row
(`Tuple.readColumns_encodeColumns`). Reading depends on the layout of the
schema only, and writing never takes more room than the row has.
-/

namespace Tablespace

namespace Value

/-- An integer of 32 bits is read back from its word. -/
theorem ofNat_wordOfInt (n : Int32) : (UInt32.ofNat (wordOfInt n)).toInt32 = n := by
  rw [wordOfInt, UInt32.ofNat_toNat]
  rfl

/-- An integer of 64 bits is read back from its word. -/
theorem ofNat_wordOfBig (n : Int64) : (UInt64.ofNat (wordOfBig n)).toInt64 = n := by
  rw [wordOfBig, UInt64.ofNat_toNat]
  rfl

/-- Bytes are read back as the word they were written from. -/
theorem ofBytes_take_bytes (width n : Nat) (rest : List UInt8) (h : n < Word.count width) :
    Word.ofBytes ((Word.bytes width n ++ rest).take width) = n := by
  rw [List.take_append_of_le_length (by simp), List.take_of_length_le (by simp),
    Word.ofBytes_bytes, Nat.mod_eq_of_lt h]

/-- **A value that is written takes the room of its column and is read back
as the column keeps it.** -/
theorem ofBytes_encode {v : Value} {type : DataType} {bs : List UInt8}
    (h : v.encode type = .ok bs) (rest : List UInt8) :
    bs.length = type.size ∧ ofBytes type (bs ++ rest) = v.widen type := by
  cases v with
  | bool b =>
    cases type with
    | boolean =>
      cases h
      refine ⟨rfl, ?_⟩
      cases b <;> rfl
    | integer | bigint | char _ => cases h
  | int n =>
    cases type with
    | integer =>
      cases h
      refine ⟨Word.length_bytes .., ?_⟩
      rw [ofBytes, ofBytes_take_bytes _ _ _ (UInt32.toNat_lt _), ofNat_wordOfInt]
      rfl
    | bigint =>
      cases h
      refine ⟨Word.length_bytes .., ?_⟩
      rw [ofBytes, ofBytes_take_bytes _ _ _ (UInt64.toNat_lt _), ofNat_wordOfBig, widen]
    | boolean | char _ => cases h
  | big n =>
    cases type with
    | bigint =>
      cases h
      refine ⟨Word.length_bytes .., ?_⟩
      rw [ofBytes, ofBytes_take_bytes _ _ _ (UInt64.toNat_lt _), ofNat_wordOfBig]
      rfl
    | boolean | integer | char _ => cases h
  | str s =>
    cases type with
    | char room =>
      unfold encode at h
      dsimp only at h
      split at h
      · rename_i fits
        cases h
        have room_lt : room.toNat < Word.count 4 := Nat.lt_of_lt_of_le room.toNat_lt (by decide)
        refine ⟨by simp only [List.length_append, Word.length_bytes, List.length_replicate,
          DataType.size]; omega, ?_⟩
        rw [ofBytes, List.append_assoc, List.append_assoc,
          ofBytes_take_bytes _ _ _ (by omega), Nat.min_eq_left fits,
          List.drop_left' (Word.length_bytes ..), List.take_left, Text.ofBytes_bytes]
        rfl
      · cases h
    | boolean | integer | bigint => cases h

/-- **A value that fits a column** can be written there. -/
theorem encode_of_fits {v : Value} {type : DataType} (fits : v.fits type = true) :
    ∃ bs, v.encode type = .ok bs := by
  cases v with
  | bool b =>
    cases type with
    | boolean => exact ⟨_, rfl⟩
    | integer | bigint | char _ => cases fits
  | int n =>
    cases type with
    | integer | bigint => exact ⟨_, rfl⟩
    | boolean | char _ => cases fits
  | big n =>
    cases type with
    | bigint => exact ⟨_, rfl⟩
    | boolean | integer | char _ => cases fits
  | str s =>
    cases type with
    | char room =>
      rw [encode, if_pos (of_decide_eq_true fits)]
      exact ⟨_, rfl⟩
    | boolean | integer | bigint => cases fits

end Value

namespace Schema

/-- **Values as columns keep them.** -/
def keep (s : Schema) (values : List Value) : List Value :=
  List.zipWith Value.widen values s.layout

/-- What columns keep depends on their layout only. -/
theorem keep_congr {s t : Schema} (same : s.sameLayout t = true) (values : List Value) :
    s.keep values = t.keep values := by
  rw [keep, keep, of_decide_eq_true same]

/-- So does the size of a row. -/
theorem rowSize_congr {s t : Schema} (same : s.sameLayout t = true) : s.rowSize = t.rowSize := by
  have go (cs ds : List Column) (types : cs.map (·.type) = ds.map (·.type)) :
      sizeOf cs = sizeOf ds := by
    induction cs generalizing ds with
    | nil =>
      rw [List.map_nil, eq_comm, List.map_eq_nil_iff] at types
      rw [types]
    | cons c cs ih =>
      cases ds with
      | nil => cases types
      | cons d ds =>
        have head : c.type = d.type := (List.cons.inj types).1
        rw [sizeOf, sizeOf, head, ih ds (List.cons.inj types).2]
  exact go s.columns t.columns (of_decide_eq_true same)

end Schema

namespace Tuple

/-- Reading depends on the types of the columns only. -/
theorem readColumns_congr {cs ds : List Column} (same : cs.map (·.type) = ds.map (·.type))
    (bs : List UInt8) : readColumns cs bs = readColumns ds bs := by
  induction cs generalizing ds bs with
  | nil =>
    rw [List.map_nil, eq_comm, List.map_eq_nil_iff] at same
    rw [same]
  | cons c cs ih =>
    cases ds with
    | nil => cases same
    | cons d ds =>
      have head : c.type = d.type := (List.cons.inj same).1
      rw [readColumns, readColumns, head, ih (List.cons.inj same).2]

/-- Writing takes no more room than the columns have, wherever it stops. -/
theorem length_encodeColumns_le (columns : List Column) (values : List Value) :
    (encodeColumns columns values).1.length ≤ Schema.sizeOf columns := by
  induction columns generalizing values with
  | nil => cases values <;> simp [encodeColumns]
  | cons c cs ih =>
    cases values with
    | nil => simp [encodeColumns]
    | cons v vs =>
      rw [encodeColumns, Schema.sizeOf]
      cases h : v.encode c.type with
      | error cause => simp
      | ok bs =>
        have size := (Value.ofBytes_encode h []).1
        have rest := ih vs
        dsimp only
        rw [List.length_append]
        omega

/-- **A row that is written in full takes exactly the room of its columns
and is read back as they keep it.** -/
theorem readColumns_encodeColumns {columns : List Column} {values : List Value}
    (length : values.length = columns.length) (full : (encodeColumns columns values).2 = none)
    (rest : List UInt8) :
    (encodeColumns columns values).1.length = Schema.sizeOf columns ∧
      readColumns columns ((encodeColumns columns values).1 ++ rest)
        = List.zipWith Value.widen values (columns.map (·.type)) := by
  induction columns generalizing values with
  | nil =>
    rw [List.length_eq_zero_iff.1 length]
    exact ⟨rfl, rfl⟩
  | cons c cs ih =>
    cases values with
    | nil => cases length
    | cons v vs =>
      rw [encodeColumns] at full ⊢
      cases h : v.encode c.type with
      | error cause => rw [h] at full; cases full
      | ok bs =>
        rw [h] at full
        obtain ⟨size, back⟩ :=
          Value.ofBytes_encode h ((encodeColumns cs vs).1 ++ rest)
        obtain ⟨sizes, backs⟩ := ih (Nat.succ.inj length) full
        refine ⟨by rw [List.length_append, size, sizes, Schema.sizeOf], ?_⟩
        rw [readColumns, List.append_assoc, back, List.drop_left' size, backs]
        rfl

/-- **Writing over a slot leaves as many bytes**, whether it succeeds or
not. -/
theorem length_overwrite (t : Tuple) (slot : List UInt8) :
    (t.overwrite slot).1.length = slot.length := by
  unfold overwrite
  split
  · rename_i same
    have fits := length_encodeColumns_le t.schema.columns t.values
    rw [Schema.rowSize] at same
    rw [List.length_append, List.length_drop]
    omega
  · rfl

/-- Whether a row can be written over a slot depends on the number of its
bytes, not on what they are. -/
theorem overwrite_snd_congr {t : Tuple} {slot slot' : List UInt8} (h : slot'.length = slot.length) :
    (t.overwrite slot').2 = (t.overwrite slot).2 := by
  unfold overwrite
  rw [h]
  split <;> rfl

/-- **A row that was written over a slot is read back from it**, under any
schema of its layout. -/
theorem readColumns_overwrite {t : Tuple} {slot : List UInt8} {schema : Schema}
    (same : t.schema.sameLayout schema = true) (written : (t.overwrite slot).2 = none) :
    readColumns schema.columns (t.overwrite slot).1 = schema.keep t.values := by
  have types : schema.columns.map (·.type) = t.schema.columns.map (·.type) :=
    (of_decide_eq_true same : t.schema.layout = schema.layout).symm
  rw [readColumns_congr types, ← Schema.keep_congr same]
  unfold overwrite at written ⊢
  split at written
  · rename_i fits
    rw [if_pos fits]
    exact (readColumns_encodeColumns t.length_values written _).2
  · cases written

/-- Bytes that are long enough are read as a row. -/
theorem shortfall?_eq_none {columns : List Column} {length : Nat}
    (enough : Schema.sizeOf columns ≤ length) : shortfall? columns length = none := by
  induction columns generalizing length with
  | nil => rfl
  | cons c cs ih =>
    rw [Schema.sizeOf] at enough
    rw [shortfall?, if_neg (by omega)]
    exact ih (by omega)

/-- **Bytes that are long enough are read as a row** of their values. -/
theorem decode_eq_ok {schema : Schema} {bs : List UInt8} (enough : schema.rowSize ≤ bs.length) :
    decode schema bs
      = .ok ⟨schema, readColumns schema.columns bs, none, length_readColumns ..⟩ := by
  unfold decode
  rw [shortfall?_eq_none enough]

/-! ## Rows that fit their columns -/

/-- **A row whose values fit its columns**: one that is let through when it is
made of them. -/
def Conforms (t : Tuple) : Prop :=
  ofValues t.schema t.values = .ok (t.located none)

/-- A row that is made of values conforms. -/
theorem conforms_of_ofValues {schema : Schema} {values : List Value} {t : Tuple}
    (h : ofValues schema values = .ok t) : t.Conforms := by
  have made := h
  unfold ofValues at h
  split at h
  · split at h
    · cases h
    · cases h
      exact made
  · cases h

theorem Conforms.fits {t : Tuple} (h : t.Conforms) :
    ∀ cv ∈ t.schema.columns.zip t.values, cv.2.fits cv.1.type = true := by
  unfold Conforms ofValues at h
  split at h
  · split at h
    · cases h
    · rename_i none
      simpa using List.find?_eq_none.1 none
  · cases h

/-- Values that fit are written in full. -/
theorem encodeColumns_of_fits {columns : List Column} {values : List Value}
    (fits : ∀ cv ∈ columns.zip values, cv.2.fits cv.1.type = true) :
    (encodeColumns columns values).2 = none := by
  induction columns generalizing values with
  | nil => cases values <;> rfl
  | cons c cs ih =>
    cases values with
    | nil => rfl
    | cons v vs =>
      obtain ⟨bs, written⟩ := Value.encode_of_fits (fits (c, v) List.mem_cons_self)
      rw [encodeColumns, written]
      exact ih fun cv there => fits cv (List.mem_cons_of_mem _ there)

/-- **A row that conforms is written in full** over a slot of its size. -/
theorem Conforms.overwrite {t : Tuple} (h : t.Conforms) {slot : List UInt8}
    (length : slot.length = t.schema.rowSize) : (t.overwrite slot).2 = none := by
  rw [Tuple.overwrite, if_pos length]
  exact encodeColumns_of_fits h.fits

end Tuple

end Tablespace
