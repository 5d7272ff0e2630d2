import BucketBench.Json.Reader
import BucketBench.Proofs.Number.Shortest

set_option autoImplicit false

namespace BucketBench

namespace Json

open Digits

/-- What may follow a number: nothing that would belong to it. -/
def EndsNumber (rest : List Char) : Prop :=
  ∀ c ∈ rest.head?, c.isDigit = false ∧ c ≠ '.' ∧ c ≠ 'e' ∧ c ≠ 'E'

def exponentChars (e : Int) : List Char := 'e' :: (if e < 0 then '-' else '+') :: (toString e.natAbs).toList

def numeral (whole fraction : List Char) (exponent : Option Int) : List Char :=
  whole ++ ((if fraction = [] then [] else '.' :: fraction) ++ (exponent.map exponentChars).getD [])

structure IsNumeral (whole fraction : List Char) : Prop where
  digits : AllDigits whole
  nonempty : whole ≠ []
  leading : 1 < whole.length → whole.head? ≠ some '0'
  fractionDigits : AllDigits fraction

theorem readExponent?_chars (e : Int) {rest : List Char} (ends : EndsNumber rest) :
    readExponent? ((if e < 0 then '-' else '+') :: ((toString e.natAbs).toList ++ rest)) = some (e, rest) := by
  have digits := spanDigits_append (allDigits_toString e.natAbs) (fun c hc => (ends c hc).1)
  have value := decimalValue_toString e.natAbs
  obtain ⟨c, cs, first⟩ := List.exists_cons_of_ne_nil (toString_ne_nil e.natAbs)
  rw [first] at digits value ⊢
  split_ifs with negative
  · have same : -(e.natAbs : Int) = e := by omega
    simp only [readExponent?, digits, value, if_true, same]
  · have same : (e.natAbs : Int) = e := by omega
    simp only [readExponent?, digits, value, Bool.false_eq_true, if_false, same]

theorem readPower?_chars (exponent : Option Int) {rest : List Char} (ends : EndsNumber rest) :
    readPower? ((exponent.map exponentChars).getD [] ++ rest) = some (exponent, rest) := by
  cases exponent with
  | none =>
    rw [Option.map_none, Option.getD_none, List.nil_append]
    unfold readPower?
    split
    · exact absurd rfl (ends _ rfl).2.2.1
    · exact absurd rfl (ends _ rfl).2.2.2
    · rfl
  | some e =>
    rw [Option.map_some, Option.getD_some, exponentChars, List.cons_append, List.cons_append, readPower?,
      readExponent?_chars e ends]
    rfl

theorem readFraction?_chars {fraction rest : List Char} (digits : AllDigits fraction)
    (stop : ∀ c ∈ rest.head?, c.isDigit = false ∧ c ≠ '.') :
    readFraction? ((if fraction = [] then [] else '.' :: fraction) ++ rest) =
      some (if fraction = [] then none else some fraction, rest) := by
  have span := spanDigits_append digits fun c hc => (stop c hc).1
  cases fraction with
  | nil =>
    rw [if_pos rfl, if_pos rfl, List.nil_append]
    unfold readFraction?
    split
    · exact absurd rfl (stop _ rfl).2
    · rfl
  | cons c cs =>
    rw [if_neg (List.cons_ne_nil c cs), if_neg (List.cons_ne_nil c cs), List.cons_append, readFraction?, span]

theorem stop_exponent (exponent : Option Int) {rest : List Char} (ends : EndsNumber rest) :
    ∀ c ∈ ((exponent.map exponentChars).getD [] ++ rest).head?, c.isDigit = false ∧ c ≠ '.' := by
  cases exponent with
  | none => exact fun c hc => ⟨(ends c hc).1, (ends c hc).2.1⟩
  | some e =>
    rintro c ⟨⟩
    decide

theorem stop_fraction (fraction : List Char) {rest : List Char} (stop : ∀ c ∈ rest.head?, c.isDigit = false) :
    ∀ c ∈ ((if fraction = [] then [] else '.' :: fraction) ++ rest).head?, c.isDigit = false := by
  split_ifs
  · exact stop
  · rintro c ⟨⟩
    rfl

theorem readNumber?_numeral (negative : Bool) {whole fraction rest : List Char} (exponent : Option Int)
    (h : IsNumeral whole fraction) (ends : EndsNumber rest) :
    readNumber? negative (numeral whole fraction exponent ++ rest) =
      (ofParts? negative whole (if fraction = [] then none else some fraction) exponent).map (·, rest) := by
  have stop := stop_exponent exponent ends
  have span := spanDigits_append h.digits (stop_fraction fraction fun c hc => (stop c hc).1)
  have shape : (whole.isEmpty || (whole.length > 1 && whole.head? == some '0')) = false := by
    simpa [h.nonempty] using h.leading
  rw [numeral, List.append_assoc, List.append_assoc, readNumber?, span]
  simp only [shape, Bool.false_eq_true, if_false, readFraction?_chars h.fractionDigits stop, Option.bind_eq_bind,
    Option.bind_some, readPower?_chars exponent ends]
  cases ofParts? negative whole (if fraction = [] then none else some fraction) exponent <;> rfl

/-! ## Whole numbers -/

theorem isNumeral_toString (n : Nat) : IsNumeral (toString n).toList [] where
  digits := allDigits_toString n
  nonempty := toString_ne_nil n
  leading long := by
    apply head?_toString_ne
    by_contra zero
    obtain rfl : n = 0 := by omega
    exact absurd long (by decide)
  fractionDigits := List.forall_mem_nil _

theorem readNumber?_toString (negative : Bool) (n : Nat) {rest : List Char} (ends : EndsNumber rest) :
    readNumber? negative ((toString n).toList ++ rest) = (ofDigits? negative n).map (·, rest) := by
  have read := readNumber?_numeral negative none (isNumeral_toString n) ends
  rw [numeral, if_pos rfl, if_pos rfl, Option.map_none, Option.getD_none, List.append_nil, List.append_nil] at read
  rw [read, ofParts?, decimalValue_toString]

/-! ## Doubles -/

theorem ofParts?_of_marked (negative : Bool) (whole : List Char) {fraction : List Char} {exponent : Option Int}
    (marked : fraction ≠ [] ∨ exponent ≠ none) :
    ofParts? negative whole (if fraction = [] then none else some fraction) exponent =
      (Double.ofDecimal? negative (decimalValue (whole ++ fraction))
        (exponent.getD 0 - fraction.length)).map .double := by
  cases fraction with
  | nil =>
    cases exponent with
    | none => exact absurd marked (by simp)
    | some e => rfl
  | cons c cs =>
    rw [if_neg (List.cons_ne_nil c cs)]
    rfl

/-- The numeral of a double: one that is never taken for a whole number, and whose value is near the double. -/
structure IsNumeralOf (x : Double) (whole fraction : List Char) (exponent : Option Int) : Prop
    extends IsNumeral whole fraction where
  marked : fraction ≠ [] ∨ exponent ≠ none
  near : x.Near (decimalValue (whole ++ fraction) * 10 ^ (exponent.getD 0 - fraction.length))

theorem IsNumeralOf.readNumber? {x : Double} {whole fraction : List Char} {exponent : Option Int}
    (h : IsNumeralOf x whole fraction exponent) (nonzero : x.magnitude ≠ 0) {rest : List Char} (ends : EndsNumber rest) :
    readNumber? x.negative (numeral whole fraction exponent ++ rest) = some (.double x, rest) := by
  rw [readNumber?_numeral _ _ h.toIsNumeral ends, ofParts?_of_marked _ _ h.marked,
    Double.ofDecimal?_of_near nonzero h.near]
  rfl

section Layout

variable {x : Double} {d : Decimal} (pos : 0 < d.digits) (near : x.Near d.value)

theorem isNumeral_split {n : Nat} (pos : 0 < n) {k : Nat} (some : 0 < k) :
    IsNumeral ((toString n).toList.take k) ((toString n).toList.drop k) := by
  have digits := allDigits_toString n
  obtain ⟨c, cs, first⟩ := List.exists_cons_of_ne_nil (toString_ne_nil n)
  obtain ⟨j, rfl⟩ := Nat.exists_eq_add_of_le' some
  have lead := head?_toString_ne pos
  rw [← List.take_append_drop (j + 1) (toString n).toList] at digits
  exact {
    digits := digits.of_append.1
    nonempty := by
      rw [first]
      exact List.cons_ne_nil _ _
    leading := fun _ => by
      rw [first] at lead ⊢
      exact lead
    fractionDigits := digits.of_append.2 }

include near

/-- In front of the point and behind it stand the digits, and the exponent makes up for the place of the point. -/
theorem isNumeralOf_of_value {whole fraction : List Char} {exponent : Option Int} (h : IsNumeral whole fraction)
    (marked : fraction ≠ [] ∨ exponent ≠ none) (value : decimalValue (whole ++ fraction) = d.digits)
    (place : exponent.getD 0 - fraction.length = d.exponent) : IsNumeralOf x whole fraction exponent :=
  { h with marked, near := by rw [value, place]; exact near }

/-- A number below one begins with a zero and a point, behind which zeros may stand in front of its digits. -/
theorem isNumeralOf_fraction (zeros : Nat) (count : -(zeros : Int) = (toString d.digits).toList.length + d.exponent) :
    IsNumeralOf x ['0'] (List.replicate zeros '0' ++ (toString d.digits).toList) none := by
  have digits := (allDigits_zeros zeros).append (allDigits_toString d.digits)
  have zero : AllDigits ['0'] := allDigits_zeros 1
  apply isNumeralOf_of_value near
  · exact ⟨zero, List.cons_ne_nil _ _, fun long => absurd long (by decide), digits⟩
  · exact Or.inl (List.append_ne_nil_of_right_ne_nil _ (toString_ne_nil _))
  · rw [decimalValue_append zero digits, decimalValue_append (allDigits_zeros zeros) (allDigits_toString _),
      decimalValue_zeros, decimalValue_toString, show decimalValue ['0'] = 0 from rfl]
    omega
  · rw [List.length_append, List.length_replicate, Option.getD_none]
    omega

include pos

/-- A whole number ends in the zeros that its digits lack, a point and one more zero. -/
theorem isNumeralOf_whole (zeros : Nat) (count : d.exponent = zeros) :
    IsNumeralOf x ((toString d.digits).toList ++ List.replicate zeros '0') ['0'] none := by
  have digits := (allDigits_toString d.digits).append (allDigits_zeros zeros)
  have zero : AllDigits ['0'] := allDigits_zeros 1
  refine ⟨⟨digits, List.append_ne_nil_of_left_ne_nil (toString_ne_nil _) _, fun _ => ?_, zero⟩, .inl (by decide), ?_⟩
  · have lead := head?_toString_ne pos
    obtain ⟨c, cs, first⟩ := List.exists_cons_of_ne_nil (toString_ne_nil d.digits)
    rw [first] at lead ⊢
    exact lead
  · have value : decimalValue ((toString d.digits).toList ++ List.replicate zeros '0' ++ ['0']) =
        d.digits * 10 ^ zeros * 10 := by
      rw [decimalValue_append digits zero, decimalValue_append (allDigits_toString _) (allDigits_zeros zeros),
        decimalValue_zeros, decimalValue_toString, show decimalValue ['0'] = 0 from rfl, List.length_replicate,
        List.length_singleton]
      ring
    have same : ((d.digits * 10 ^ zeros * 10 : ℕ) : ℚ) * 10 ^ ((none : Option Int).getD 0 - (['0'].length : Int)) =
        d.value := by
      rw [Decimal.value, count]
      push_cast
      norm_num
      ring
    rw [value, same]
    exact near

theorem isNumeralOf_split {k : Nat} (some : 0 < k) (rest : k ≤ (toString d.digits).toList.length)
    {exponent : Option Int} (marked : k < (toString d.digits).toList.length ∨ exponent ≠ none)
    (place : exponent.getD 0 + k = (toString d.digits).toList.length + d.exponent) :
    IsNumeralOf x ((toString d.digits).toList.take k) ((toString d.digits).toList.drop k) exponent := by
  apply isNumeralOf_of_value near (isNumeral_split pos some)
  · refine marked.imp_left fun less => ?_
    rw [Ne, List.drop_eq_nil_iff]
    omega
  · rw [List.take_append_drop, decimalValue_toString]
  · rw [List.length_drop]
    omega

theorem exists_positional {whole : Int} (count : whole = (toString d.digits).length + d.exponent) :
    ∃ front behind, (Double.positional (toString d.digits) whole).toList = numeral front behind none ∧
      IsNumeralOf x front behind none := by
  rw [← String.length_toList] at count
  rw [Double.positional]
  simp only [← String.length_toList]
  split_ifs with below above
  · refine ⟨_, _, ?_, isNumeralOf_fraction near (-whole).toNat (by omega)⟩
    simp [numeral]
  · refine ⟨_, _, ?_, isNumeralOf_whole pos near (whole - (toString d.digits).toList.length).toNat (by omega)⟩
    simp [numeral]
  · refine ⟨_, _, ?_, isNumeralOf_split pos near (k := whole.toNat) (by omega) (by omega) (.inl (by omega))
      (by rw [Option.getD_none]; omega)⟩
    have behind : (toString d.digits).toList.drop whole.toNat ≠ [] := by
      rw [Ne, List.drop_eq_nil_iff]
      omega
    rw [numeral, if_neg behind]
    simp

omit pos near in
theorem toList_pointed (s : String) :
    (if s.isEmpty then "" else "." ++ s).toList = if s.toList = [] then [] else '.' :: s.toList := by
  by_cases none : s = ""
  · rw [none]
    rfl
  · rw [if_neg (by simpa using none), if_neg (by simpa using none), String.toList_append]
    rfl

theorem exists_scientific {whole : Int} (count : whole = (toString d.digits).length + d.exponent) :
    ∃ front behind, (Double.scientific (toString d.digits) (whole - 1)).toList = numeral front behind (some (whole - 1)) ∧
      IsNumeralOf x front behind (some (whole - 1)) := by
  have length := Digits.length_toString_pos d.digits
  rw [← String.length_toList] at count length
  refine ⟨_, _, ?_, isNumeralOf_split pos near (k := 1) (by omega) (by omega) (.inr (by simp))
    (by rw [Option.getD_some]; omega)⟩
  have sign : (if whole - 1 < 0 then "-" else "+").toList = [if whole - 1 < 0 then '-' else '+'] := by
    split_ifs <;> rfl
  have first : ((toString d.digits).take 1).toString.toList = (toString d.digits).toList.take 1 := String.toList_copy_take
  have rest : ((toString d.digits).drop 1).toString.toList = (toString d.digits).toList.drop 1 := String.toList_copy_drop
  rw [Double.scientific, numeral, Option.map_some, Option.getD_some, exponentChars, String.toList_append,
    String.toList_append, String.toList_append, String.toList_append, toList_pointed, first, rest, sign]
  simp only [List.append_assoc, List.singleton_append]
  rfl

end Layout

theorem digits_shortest_pos {x : Double} (nonzero : x.magnitude ≠ 0) : 0 < x.shortest.digits :=
  (show x.Near (x.shortest.digits * 10 ^ x.shortest.exponent) from Double.near_value_shortest nonzero).digits_pos nonzero

theorem eq_zero_of_magnitude {x : Double} (zero : x.magnitude = 0) : x = Double.zero x.negative := by
  cases x
  cases zero
  rfl

/-- The text of a double is a sign and a numeral that is read as the double. -/
theorem exists_text (x : Double) : ∃ whole fraction exponent, IsNumeral whole fraction ∧
    x.text.toList = x.signText.toList ++ numeral whole fraction exponent ∧
      ∀ rest, EndsNumber rest →
        readNumber? x.negative (numeral whole fraction exponent ++ rest) = some (.double x, rest) := by
  by_cases zero : x.magnitude = 0
  · have one : AllDigits ['0'] := allDigits_zeros 1
    have shape : IsNumeral ['0'] ['0'] := ⟨one, List.cons_ne_nil _ _, fun long => absurd long (by decide), one⟩
    refine ⟨['0'], ['0'], none, shape, ?_, fun rest ends => ?_⟩
    · rw [Double.text, Double.shortest, if_pos zero, String.toList_append]
      rfl
    · rw [readNumber?_numeral _ _ shape ends, ofParts?_of_marked _ _ (.inl (List.cons_ne_nil _ _)),
        eq_zero_of_magnitude zero]
      rfl
  · have pos := digits_shortest_pos zero
    have near := Double.near_value_shortest zero
    rw [Double.text, if_neg pos.ne', String.toList_append]
    split_ifs with plain
    · obtain ⟨front, behind, text, h⟩ := exists_positional pos near rfl
      exact ⟨front, behind, none, h.toIsNumeral, by rw [text], fun rest ends => h.readNumber? zero ends⟩
    · obtain ⟨front, behind, text, h⟩ := exists_scientific pos near rfl
      exact ⟨front, behind, _, h.toIsNumeral, by rw [text], fun rest ends => h.readNumber? zero ends⟩

end Json

end BucketBench
