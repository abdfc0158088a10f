import Mathlib.Data.List.Infix
import Mathlib.Order.Compare
import Tablespace.Predicate
import Tablespace.Proofs.Codec.Utf8

/-!
# The order of values is consistent

Values of one **kind** (`Value.kind`) are ordered, and values of two kinds are not: integers of
either width are of one kind. Behind the cases of the comparison stands one order
(`Value.order`), by number and then by bytes, where a truth value has no bytes, a text no number,
and an integer the same number at either width. So the laws of an order hold across widths, and
none has to be looked up in a table of cases.

From this it is told which comparisons hold of two values together (`Comparison.Laws`).
-/

namespace Tablespace

namespace Text

variable {s t : String}

/-- **A part stands in a text** if the text is something, the part, and something. -/
theorem occursIn_iff {part chars : List Char} :
    occursIn part chars = true ↔ part <:+: chars := by
  induction chars with
  | nil => rw [occursIn, List.isEmpty_iff, List.infix_nil]
  | cons c cs ih =>
    rw [occursIn, Bool.or_eq_true, List.isPrefixOf_iff_prefix, ih, List.infix_cons_iff]

/-- Bytes are ordered as the numbers that they are. -/
theorem compare_map_toNat (l m : List UInt8) :
    compare (l.map UInt8.toNat) (m.map UInt8.toNat) = compare l m := by
  induction l generalizing m with
  | nil => cases m <;> rfl
  | cons x l ih =>
    cases m with
    | nil => rfl
    | cons y m =>
      rw [List.map_cons, List.map_cons, List.compare_cons_cons, List.compare_cons_cons, ih,
        UInt8.compare_eq_toNat_compare_toNat]

/-- Bytes come before others if they do at the first place where they differ. -/
theorem compare_eq_lt_iff {l m : List UInt8} : compare l m = .lt ↔ l < m := by
  induction l generalizing m with
  | nil => cases m <;> simp
  | cons x l ih =>
    cases m with
    | nil => simp
    | cons y m =>
      rw [List.compare_cons_cons, List.cons_lt_cons_iff, Ordering.then_eq_lt, ih, Std.compare_eq_lt,
        Std.compare_eq_iff_eq]

/-- Texts of the same bytes are the same. -/
theorem bytes_inj : bytes s = bytes t ↔ s = t := by
  refine ⟨fun same => ?_, congrArg bytes⟩
  rw [← ofBytes_bytes s, same, ofBytes_bytes]

end Text

namespace Value

/-- **The kinds of values**, of which each is ordered in itself. -/
inductive Kind where
  | truth
  | number
  | text
  deriving DecidableEq

/-- **The kind of a value.** The width of an integer does not matter. -/
def kind : Value → Kind
  | bool _ => .truth
  | int _ | big _ => .number
  | str _ => .text

/-- The number by which a value is ordered. -/
def number : Value → Int
  | bool b => b.toNat
  | int n => n.toInt
  | big n => n.toInt
  | str _ => 0

/-- The bytes by which it is ordered, if the number does not tell. -/
def octets : Value → List Nat
  | bool _ | int _ | big _ => []
  | str s => (Text.bytes s).map UInt8.toNat

/-- **The order behind the comparison**, by number and then by bytes. -/
def order : Value → Value → Ordering :=
  compareLex (compareOn number) (compareOn octets)

instance : Std.TransCmp order :=
  inferInstanceAs (Std.TransCmp (compareLex (compareOn number) (compareOn octets)))

variable {a b c : Value} {o : Ordering}

/-- **Values are compared by the order behind**, if they are of one kind. -/
theorem compare?_eq (a b : Value) :
    a.compare? b = if a.kind = b.kind then some (order a b) else none := by
  have bools (p q : Bool) : compare p.toNat q.toNat = order (bool p) (bool q) := by
    cases p <;> cases q <;> rfl
  have numbers (m n : Int) : compare m n = (compare m n).then (compare ([] : List Nat) []) :=
    Ordering.then_eq.symm
  cases a with
  | bool p =>
    cases b with
    | bool q => exact congrArg some (bools p q)
    | int _ | big _ | str _ => rfl
  | int m | big m =>
    cases b with
    | int n | big n => exact congrArg some (numbers m.toInt n.toInt)
    | bool _ | str _ => rfl
  | str s =>
    cases b with
    | str t => rfl
    | bool _ | int _ | big _ => rfl

/-- Values can be compared if they are of one kind, -/
theorem compare?_eq_none_iff : a.compare? b = none ↔ a.kind ≠ b.kind := by
  rw [compare?_eq]
  split <;> simp_all

theorem kind_eq_of_compare? (h : a.compare? b = some o) : a.kind = b.kind := by
  by_contra apart
  rw [compare?_eq_none_iff.2 apart] at h
  cases h

/-- and then the other way round as well. -/
theorem compare?_swap (a b : Value) : b.compare? a = (a.compare? b).map Ordering.swap := by
  rw [compare?_eq, compare?_eq]
  by_cases same : a.kind = b.kind
  · rw [if_pos same, if_pos same.symm, Option.map_some, ← Std.OrientedCmp.eq_swap]
  · rw [if_neg same, if_neg (Ne.symm same), Option.map_none]

/-- Values that are equal in the order compare in the same way with all others. -/
theorem compare?_congr (same : a.compare? b = some .eq) : a.compare? c = b.compare? c := by
  have kinds := kind_eq_of_compare? same
  rw [compare?_eq, if_pos kinds] at same
  rw [compare?_eq, compare?_eq, kinds, Std.TransCmp.congr_left (Option.some.inj same)]

/-- **The order is transitive.** -/
theorem compare?_trans (first : a.compare? b = some o) (second : b.compare? c = some o) :
    a.compare? c = some o := by
  have ab := kind_eq_of_compare? first
  have bc := kind_eq_of_compare? second
  rw [compare?_eq, if_pos ab] at first
  rw [compare?_eq, if_pos bc] at second
  rw [compare?_eq, if_pos (ab.trans bc)]
  have first := Option.some.inj first
  have second := Option.some.inj second
  refine congrArg some ?_
  cases o with
  | lt => exact Std.TransCmp.lt_trans first second
  | eq => exact Std.TransCmp.eq_trans first second
  | gt => exact Std.TransCmp.gt_trans first second

/-- Integers are compared as numbers, whatever their widths. -/
theorem compare?_numbers {m n : Int64} (left : a.asInt? = some m) (right : b.asInt? = some n) :
    a.compare? b = some (compare m.toInt n.toInt) := by
  have number {v : Value} {k : Int64} (is : v.asInt? = some k) :
      v.kind = .number ∧ v.number = k.toInt ∧ v.octets = [] := by
    cases v with
    | int n =>
      obtain rfl := Option.some.inj is
      exact ⟨rfl, (Int32.toInt_toInt64 n).symm, rfl⟩
    | big n =>
      obtain rfl := Option.some.inj is
      exact ⟨rfl, rfl, rfl⟩
    | bool _ | str _ => cases is
  obtain ⟨kindA, numberA, octetsA⟩ := number left
  obtain ⟨kindB, numberB, octetsB⟩ := number right
  rw [compare?_eq, if_pos (kindA.trans kindB.symm), order, compareLex, compareOn, compareOn,
    numberA, numberB, octetsA, octetsB]
  exact congrArg some Ordering.then_eq

/-- Truth values are compared as such. -/
theorem compare?_bool (p q : Bool) : (bool p).compare? (bool q) = some (compare p q) := by
  cases p <;> cases q <;> rfl

/-- Texts are compared by their bytes. -/
theorem compare?_str (s t : String) :
    (str s).compare? (str t) = some (compare (Text.bytes s) (Text.bytes t)) :=
  congrArg some (Text.compare_map_toNat _ _)

end Value

/-! ## Comparisons -/

namespace Comparison

variable {a b : Value} {s t : String}

/-- All but `LIKE` go by the order of the values. -/
theorem holds_eq {comparison : Comparison} (other : comparison ≠ .like) (a b : Value) :
    comparison.holds a b = comparison.admits (a.compare? b) := by
  cases comparison with
  | like => exact absurd rfl other
  | _ => rfl

/-- `LIKE` asks of texts whether the right one stands in the left one, -/
theorem like_texts : Comparison.like.holds (.str s) (.str t) = true ↔ t.toList <:+: s.toList :=
  Text.occursIn_iff

/-- and of others whether they are equal. -/
theorem like_others (other : ¬(a.kind = .text ∧ b.kind = .text)) :
    Comparison.like.holds a b = Comparison.equal.holds a b := by
  cases a with
  | str s =>
    cases b with
    | str t => exact absurd ⟨rfl, rfl⟩ other
    | _ => rfl
  | _ => rfl

/-- **The laws of comparing values.** -/
structure Laws (a b c : Value) : Prop where
  /-- Two values have no order if they are of different kinds. -/
  none_iff : a.compare? b = none ↔ a.kind ≠ b.kind
  /-- The order of two values in the other direction is the reverse. -/
  swap : b.compare? a = (a.compare? b).map Ordering.swap
  /-- The order is transitive, -/
  trans : ∀ o, a.compare? b = some o → b.compare? c = some o → a.compare? c = some o
  /-- and what is equal in it is so to every third value. -/
  congr : a.compare? b = some .eq → a.compare? c = b.compare? c
  /-- Integers are ordered as numbers, -/
  numbers : ∀ m n, a.asInt? = some m → b.asInt? = some n →
    a.compare? b = some (compare m.toInt n.toInt)
  /-- truth values with `false` first, -/
  truths : ∀ p q, a = .bool p → b = .bool q → a.compare? b = some (compare p q)
  /-- and texts by their bytes: the lesser one has the lesser byte where they differ first, or
  ends there, and only the same texts are equal. -/
  texts : ∀ s t, a = .str s → b = .str t → (a.compare? b = some .lt ↔ Text.bytes s < Text.bytes t)
    ∧ (a.compare? b = some .eq ↔ s = t)
  /-- The three strict comparisons are those of the order. -/
  strict : ∀ entry ∈ [(less, Ordering.lt), (equal, .eq), (greater, .gt)],
    entry.1.holds a b = true ↔ a.compare? b = some entry.2
  /-- Of two values that have an order exactly one of them holds. -/
  unique : a.kind = b.kind → ∃! comparison,
    comparison ∈ [less, equal, greater] ∧ comparison.holds a b = true
  /-- `<=` is `<` or `=`, -/
  atMost : Comparison.atMost.holds a b = (less.holds a b || equal.holds a b)
  /-- `>=` is `>` or `=`, -/
  atLeast : Comparison.atLeast.holds a b = (greater.holds a b || equal.holds a b)
  /-- and `<>` is not `=`. -/
  unequal : Comparison.unequal.holds a b = !equal.holds a b
  /-- Of two values that have no order only `<>` holds. -/
  apart : a.kind ≠ b.kind → ∀ comparison : Comparison,
    comparison.holds a b = true ↔ comparison = .unequal
  /-- `LIKE` asks of texts whether the right one stands in the left one as one piece, -/
  like_texts : ∀ s t, a = .str s → b = .str t →
    (Comparison.like.holds a b = true ↔ t.toList <:+: s.toList)
  /-- and of others whether they are equal. -/
  like_others : ¬(a.kind = .text ∧ b.kind = .text) →
    Comparison.like.holds a b = equal.holds a b

/-- **Comparing values is lawful.** -/
theorem laws (a b c : Value) : Laws a b c where
  none_iff := Value.compare?_eq_none_iff
  swap := Value.compare?_swap a b
  trans _ := Value.compare?_trans
  congr := Value.compare?_congr
  numbers _ _ := Value.compare?_numbers
  truths := by
    rintro p q rfl rfl
    exact Value.compare?_bool p q
  texts := by
    rintro s t rfl rfl
    rw [Value.compare?_str, Option.some_inj, Option.some_inj, Text.compare_eq_lt_iff,
      Std.compare_eq_iff_eq, Text.bytes_inj]
    exact ⟨Iff.rfl, Iff.rfl⟩
  strict := by
    simp [holds, admits]
  unique same := by
    have ordered : a.compare? b ≠ none := fun none => Value.compare?_eq_none_iff.1 none same
    obtain ⟨o, is⟩ := Option.ne_none_iff_exists'.1 ordered
    refine ⟨match o with | .lt => less | .eq => equal | .gt => greater, ?_, ?_⟩
    · cases o <;> simp [holds, admits, is]
    · rintro comparison ⟨one, holds⟩
      rw [holds_eq (by rintro rfl; simp at one), is] at holds
      simp only [List.mem_cons, List.not_mem_nil, or_false] at one
      rcases one with rfl | rfl | rfl <;> cases o <;> first | rfl | cases holds
  atMost := rfl
  atLeast := rfl
  unequal := decide_not
  apart different comparison := by
    have other : ¬(a.kind = .text ∧ b.kind = .text) := fun texts =>
      different (texts.1.trans texts.2.symm)
    have none : a.compare? b = none := Value.compare?_eq_none_iff.2 different
    by_cases like : comparison = .like
    · subst like
      rw [Comparison.like_others other, holds_eq (by decide), none]
      decide
    · rw [holds_eq like, none]
      cases comparison with
      | like => exact absurd rfl like
      | _ => decide
  like_texts := by
    rintro s t rfl rfl
    exact like_texts
  like_others := like_others

end Comparison

end Tablespace
