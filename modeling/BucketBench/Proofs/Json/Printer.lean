import BucketBench.Json.Printer
import BucketBench.Proofs.Json.Reader
import BucketBench.Proofs.Json.Number
import Mathlib.Data.List.DropRight

set_option autoImplicit false

/-!
# What is printed is read back

A value of the kind that a reader gives, printed with indentation, is read as itself: `read?_pretty`. Such values have
whole numbers of 64 bits, objects without repeated keys, and containers nested no deeper than a reader goes.
-/

namespace BucketBench

namespace Json

/-! ## Texts -/

theorem hexDigit?_hexDigit : ∀ n : Fin 16, Digits.hexDigit? (hexDigit n) = some n.val := by decide

theorem hexDigit?_of_lt {n : Nat} (h : n < 16) : Digits.hexDigit? (hexDigit n) = some n := hexDigit?_hexDigit ⟨n, h⟩

/-- A character that is escaped, or needs not be, is read back in front of the rest. -/
theorem readString?_escape (c : Char) (rest : List Char) :
    readString? none (escape c ++ rest) = (readString? none rest).map fun p => (c :: p.1, p.2) := by
  rw [escape]
  split_ifs with quote backslash printed
  · subst quote
    cases h : readString? none rest <;> simp [readString?, h]
  · subst backslash
    cases h : readString? none rest <;> simp [readString?, h]
  · have plain : ¬ (c.toNat < 0x20 ∨ c = '\\') := not_or.2 ⟨Nat.not_lt.2 printed, backslash⟩
    rw [List.singleton_append, readString?]
    · simp [quote, plain]
    · exact fun _ _ _ _ _ same => absurd same backslash
    · exact fun _ _ same => absurd same backslash
  · have whole : c = Char.ofNat c.toNat := (Char.ofNat_toNat c).symm
    have small : c.toNat < 32 := Nat.lt_of_not_le printed
    have high := hexDigit?_of_lt (n := c.toNat / 16) (by omega)
    have low := hexDigit?_of_lt (n := c.toNat % 16) (by omega)
    split
    -- a control character without a short escape is spelled by its code, which is no surrogate
    case h_6 =>
      have unit : 4096 * 0 + 256 * 0 + 16 * (c.toNat / 16) + c.toNat % 16 = c.toNat := by omega
      have zero : Digits.hexDigit? '0' = some 0 := by decide
      have low' : ¬ (0xD800 ≤ c.toNat ∧ c.toNat ≤ 0xDBFF) := by omega
      have high' : ¬ (0xDC00 ≤ c.toNat ∧ c.toNat ≤ 0xDFFF) := by omega
      simp only [List.cons_append, List.nil_append, readString?, zero, high, low, Option.bind_eq_bind, Option.bind_some,
        unit, low', high', if_false, ← whole]
      cases readString? none rest <;> rfl
    all_goals
      rename_i code
      rw [code] at whole
      subst whole
      cases h : readString? none rest <;> simp [readString?, h]

theorem readString?_escaped (cs rest : List Char) : readString? none (cs.flatMap escape ++ '"' :: rest) = some (cs, rest) := by
  induction cs with
  | nil => rfl
  | cons c cs ih => rw [List.flatMap_cons, List.append_assoc, readString?_escape, ih, Option.map_some]

/-! ## Blanks -/

theorem skipBlanks_cons {c : Char} (h : isBlank c = false) (rest : List Char) : skipBlanks (c :: rest) = c :: rest := by
  rw [skipBlanks, List.dropWhile_cons_of_neg (by simp [h])]

theorem skipBlanks_append {lead : List Char} (h : ∀ c ∈ lead, isBlank c = true) (rest : List Char) :
    skipBlanks (lead ++ rest) = skipBlanks rest := List.dropWhile_append_of_pos h

theorem skipBlanks_skipBlanks (s : List Char) : skipBlanks (skipBlanks s) = skipBlanks s := List.dropWhile_idempotent _ s

theorem isBlank_of_mem_indent {depth : Nat} {c : Char} (h : c ∈ indent depth) : isBlank c = true := by
  obtain rfl | space := List.mem_cons.1 h
  · rfl
  · rw [List.eq_of_mem_replicate space]
    rfl

theorem skipBlanks_indent (depth : Nat) (rest : List Char) : skipBlanks (indent depth ++ rest) = skipBlanks rest :=
  skipBlanks_append (fun _ => isBlank_of_mem_indent) rest

section Skipping

variable (depth fuel : Nat) (s : List Char)

theorem readValue?_skipBlanks : readValue? depth fuel (skipBlanks s) = readValue? depth fuel s := by
  cases fuel with
  | zero => rw [readValue?, readValue?]
  | succ fuel => rw [readValue?, readValue?, skipBlanks_skipBlanks]

theorem readValue?_indent (level : Nat) : readValue? depth fuel (indent level ++ s) = readValue? depth fuel s := by
  rw [← readValue?_skipBlanks, skipBlanks_indent, readValue?_skipBlanks]

theorem readValue?_space : readValue? depth fuel (' ' :: s) = readValue? depth fuel s := by
  rw [← readValue?_skipBlanks, skipBlanks, List.dropWhile_cons_of_pos rfl, ← skipBlanks, readValue?_skipBlanks]

theorem readItems?_skipBlanks : readItems? depth fuel (skipBlanks s) = readItems? depth fuel s := by
  cases fuel with
  | zero => rw [readItems?, readItems?]
  | succ fuel => rw [readItems?, readItems?, readValue?_skipBlanks]

theorem readMembers?_skipBlanks : readMembers? depth fuel (skipBlanks s) = readMembers? depth fuel s := by
  cases fuel with
  | zero => rw [readMembers?, readMembers?]
  | succ fuel => rw [readMembers?, readMembers?, behind?, behind?, skipBlanks_skipBlanks]

end Skipping

theorem behind?_eq {mark : Char} {s rest : List Char} (h : skipBlanks s = mark :: rest) : behind? mark s = some rest := by
  rw [behind?, h]
  simp only [if_true]

theorem behind?_colon (r : List Char) : behind? ':' (':' :: r) = some r := behind?_eq (skipBlanks_cons rfl r)

/-! ## Reading one step -/

section Step

variable {depth fuel : Nat} {rest : List Char}

theorem readValue?_quote (s : String) (rest : List Char) :
    readValue? depth (fuel + 1) (quote s ++ rest) = some (.string s, rest) := by
  rw [quote, List.cons_append, List.append_assoc, readValue?, skipBlanks_cons rfl]
  simp only [List.singleton_append, readString?_escaped, Option.map_some, String.ofList_toList]

theorem readValue?_minus (r : List Char) : readValue? depth (fuel + 1) ('-' :: r) = readNumber? true r := by
  rw [readValue?, skipBlanks_cons rfl]
  rfl

theorem ne_of_isDigit {c mark : Char} (digit : c.isDigit = true) (other : mark.isDigit = false) : c ≠ mark := by
  rintro rfl
  rw [digit] at other
  cases other

theorem isBlank_of_isDigit {c : Char} (digit : c.isDigit = true) : isBlank c = false := by
  simp [isBlank, ne_of_isDigit digit (show ' '.isDigit = false by decide),
    ne_of_isDigit digit (show '\t'.isDigit = false by decide), ne_of_isDigit digit (show '\n'.isDigit = false by decide),
    ne_of_isDigit digit (show '\r'.isDigit = false by decide)]

theorem readValue?_digit {c : Char} (digit : c.isDigit = true) (r : List Char) :
    readValue? depth (fuel + 1) (c :: r) = readNumber? false (c :: r) := by
  rw [readValue?, skipBlanks_cons (isBlank_of_isDigit digit)]
  split
  case h_8 => rfl
  all_goals
    rename_i same
    cases same
    exact absurd digit (by decide)

/-- No value begins with a closing mark. -/
theorem readValue?_closing {mark : Char} (closing : mark = ']' ∨ mark = '\x7d') (r : List Char) :
    readValue? depth fuel (mark :: r) = none := by
  cases fuel with
  | zero => rw [readValue?]
  | succ fuel => obtain rfl | rfl := closing <;> rfl

theorem readItems?_closing (r : List Char) : readItems? depth fuel (']' :: r) = none := by
  cases fuel with
  | zero => rw [readItems?]
  | succ fuel =>
    rw [readItems?, readValue?_closing (.inl rfl)]
    rfl

theorem readMembers?_closing (r : List Char) : readMembers? depth fuel ('\x7d' :: r) = none := by
  cases fuel with
  | zero => rw [readMembers?]
  | succ fuel => rfl

theorem readValue?_array {r : List Char} {items : List Value} (h : readItems? depth fuel r = some (items, rest)) :
    readValue? (depth + 1) (fuel + 1) ('[' :: r) = some (.array items, rest) := by
  rw [← readItems?_skipBlanks] at h
  rw [readValue?, skipBlanks_cons rfl]
  simp only
  split
  · rename_i r' closed
    rw [closed, readItems?_closing] at h
    cases h
  · rw [h]
    rfl

theorem readValue?_object {r : List Char} {members : Document} (h : readMembers? depth fuel r = some (members, rest)) :
    readValue? (depth + 1) (fuel + 1) ('\x7b' :: r) = some (.object (Document.ofMembers members), rest) := by
  rw [← readMembers?_skipBlanks] at h
  rw [readValue?, skipBlanks_cons rfl]
  simp only
  split
  · rename_i r' closed
    rw [closed, readMembers?_closing] at h
    cases h
  · rw [h]
    rfl

variable {s r : List Char} {v : Value}

theorem readItems?_last (first : readValue? depth fuel s = some (v, r)) (closed : skipBlanks r = ']' :: rest) :
    readItems? depth (fuel + 1) s = some ([v], rest) := by
  rw [readItems?, first]
  simp only [Option.bind_eq_bind, Option.bind_some, closed]

theorem readItems?_more {more : List Char} {items : List Value} (first : readValue? depth fuel s = some (v, r))
    (comma : skipBlanks r = ',' :: more) (later : readItems? depth fuel more = some (items, rest)) :
    readItems? depth (fuel + 1) s = some (v :: items, rest) := by
  rw [readItems?, first]
  simp only [Option.bind_eq_bind, Option.bind_some, comma, later]

theorem readMembers?_last {key : String} {behind : List Char} (lead : skipBlanks s = quote key ++ ':' :: behind)
    (first : readValue? depth fuel behind = some (v, r)) (closed : skipBlanks r = '\x7d' :: rest) :
    readMembers? depth (fuel + 1) s = some ([(key, v)], rest) := by
  rw [quote, List.cons_append, List.append_assoc] at lead
  rw [readMembers?, behind?_eq lead]
  simp only [Option.bind_eq_bind, Option.bind_some, List.singleton_append, readString?_escaped,
    behind?_colon, first, closed, String.ofList_toList]

theorem readMembers?_more {key : String} {behind more : List Char} {members : Document}
    (lead : skipBlanks s = quote key ++ ':' :: behind) (first : readValue? depth fuel behind = some (v, r))
    (comma : skipBlanks r = ',' :: more) (later : readMembers? depth fuel more = some (members, rest)) :
    readMembers? depth (fuel + 1) s = some ((key, v) :: members, rest) := by
  rw [quote, List.cons_append, List.append_assoc] at lead
  rw [readMembers?, behind?_eq lead]
  simp only [Option.bind_eq_bind, Option.bind_some, List.singleton_append, readString?_escaped,
    behind?_colon, first, comma, later, String.ofList_toList]

end Step

/-! ## Containers -/

/-- The text of a value is read as that value at some depth, whatever it is indented by and followed by. -/
def ReadsBack (depth : Nat) (v : Value) : Prop :=
  ∀ level fuel rest, EndsNumber rest → (prettyChars level v).length < fuel →
    readValue? depth fuel (prettyChars level v ++ rest) = some (v, rest)

section Containers

variable {depth level : Nat}

theorem endsNumber_indent (level : Nat) (rest : List Char) : EndsNumber (indent level ++ rest) := by
  rintro c ⟨⟩
  decide

theorem endsNumber_prettyItems (level : Nat) (items : List Value) (rest : List Char) :
    EndsNumber (prettyItems level false items ++ rest) := by
  cases items with
  | nil =>
    rw [prettyItems, List.append_assoc]
    exact endsNumber_indent _ _
  | cons v items =>
    rintro c ⟨⟩
    decide

theorem prettyItems_later (v : Value) (items : List Value) :
    prettyItems level false (v :: items) = ',' :: prettyItems level true (v :: items) := by
  rw [prettyItems, prettyItems]
  rfl

theorem prettyItems_first (v : Value) (items : List Value) : prettyItems level true (v :: items) =
    indent (level + 1) ++ (prettyChars (level + 1) v ++ prettyItems level false items) := by
  rw [prettyItems, if_pos rfl, List.nil_append, List.append_assoc]

theorem readItems?_prettyItems {items : List Value} (nonempty : items ≠ []) (each : ∀ v ∈ items, ReadsBack depth v)
    {fuel : Nat} (enough : (prettyItems level true items).length < fuel) (rest : List Char) :
    readItems? depth fuel (prettyItems level true items ++ rest) = some (items, rest) := by
  induction items generalizing fuel with
  | nil => exact absurd rfl nonempty
  | cons v items ih =>
    rw [prettyItems_first, indent, List.cons_append, List.length_cons, List.length_append, List.length_append] at enough
    obtain ⟨fuel, rfl⟩ := Nat.exists_eq_add_one_of_ne_zero (Nat.ne_zero_of_lt enough)
    -- an element is shorter than the text that it stands in, so the fuel lasts for it and for those behind it
    have first := each v List.mem_cons_self (level + 1) fuel _ (endsNumber_prettyItems level items rest) (by omega)
    rw [← readValue?_indent depth fuel _ (level + 1)] at first
    rw [prettyItems_first, List.append_assoc, List.append_assoc]
    cases items with
    | nil =>
      apply readItems?_last first
      rw [prettyItems, List.append_assoc, skipBlanks_indent]
      rfl
    | cons w items =>
      rw [prettyItems_later, List.length_cons] at enough
      refine readItems?_more first ?_ (ih (List.cons_ne_nil _ _) (fun u hu => each u (List.mem_cons_of_mem _ hu)) ?_)
      · rw [prettyItems_later]
        rfl
      · omega

theorem endsNumber_prettyMembers (level : Nat) (members : Document) (rest : List Char) :
    EndsNumber (prettyMembers level false members ++ rest) := by
  cases members with
  | nil =>
    rw [prettyMembers, List.append_assoc]
    exact endsNumber_indent _ _
  | cons m members =>
    rintro c ⟨⟩
    decide

theorem prettyMembers_later (m : String × Value) (members : Document) :
    prettyMembers level false (m :: members) = ',' :: prettyMembers level true (m :: members) := by
  rw [prettyMembers, prettyMembers]
  rfl

theorem prettyMembers_first (m : String × Value) (members : Document) : prettyMembers level true (m :: members) =
    indent (level + 1) ++ (quote m.1 ++ ':' :: ' ' :: (prettyChars (level + 1) m.2 ++ prettyMembers level false members)) := by
  rw [prettyMembers, if_pos rfl, List.nil_append]
  simp only [List.append_assoc, List.cons_append, List.nil_append]

theorem readMembers?_prettyMembers {members : Document} (nonempty : members ≠ [])
    (each : ∀ m ∈ members, ReadsBack depth m.2) {fuel : Nat}
    (enough : (prettyMembers level true members).length < fuel) (rest : List Char) :
    readMembers? depth fuel (prettyMembers level true members ++ rest) = some (members, rest) := by
  induction members generalizing fuel with
  | nil => exact absurd rfl nonempty
  | cons m members ih =>
    rw [prettyMembers_first, indent] at enough
    simp only [List.cons_append, List.length_cons, List.length_append] at enough
    obtain ⟨fuel, rfl⟩ := Nat.exists_eq_add_one_of_ne_zero (Nat.ne_zero_of_lt enough)
    have first := each m List.mem_cons_self (level + 1) fuel _ (endsNumber_prettyMembers level members rest)
      (by omega)
    rw [← readValue?_space] at first
    have lead : skipBlanks (prettyMembers level true (m :: members) ++ rest) = quote m.1 ++ ':' :: ' ' ::
        (prettyChars (level + 1) m.2 ++ (prettyMembers level false members ++ rest)) := by
      rw [prettyMembers_first, List.append_assoc, skipBlanks_indent, quote]
      simp only [List.append_assoc, List.cons_append]
      exact skipBlanks_cons rfl _
    cases members with
    | nil =>
      apply readMembers?_last lead first
      rw [prettyMembers, List.append_assoc, skipBlanks_indent]
      rfl
    | cons n members =>
      rw [prettyMembers_later, List.length_cons] at enough
      refine readMembers?_more lead first ?_ (ih (List.cons_ne_nil _ _) (fun u hu => each u (List.mem_cons_of_mem _ hu)) ?_)
      · rw [prettyMembers_later]
        rfl
      · omega

end Containers

/-! ## Reading what was printed -/

theorem ofDigits?_natCast {k : Nat} (small : (k : Int) ∈ IntRange.bits64) : ofDigits? false k = some (.int k) := by
  rw [ofDigits?, if_neg Bool.false_ne_true, if_pos small]

theorem ofDigits?_negSucc {k : Nat} (small : Int.negSucc k ∈ IntRange.bits64) :
    ofDigits? true (k + 1) = some (.int (Int.negSucc k)) := by
  have same : -((k + 1 : Nat) : Int) = Int.negSucc k := rfl
  rw [ofDigits?, if_pos rfl, if_neg (Nat.succ_ne_zero k), same, if_pos small]

/-- A numeral that begins with a digit is read as a number without a sign. -/
theorem readValue?_digits {depth fuel : Nat} {s : List Char} (digits : Digits.AllDigits s) (nonempty : s ≠ [])
    (rest : List Char) : readValue? depth (fuel + 1) (s ++ rest) = readNumber? false (s ++ rest) := by
  obtain ⟨c, cs, rfl⟩ := List.exists_cons_of_ne_nil nonempty
  exact readValue?_digit (digits c List.mem_cons_self) _

theorem readsBack_int (depth : Nat) {n : Int} (small : n ∈ IntRange.bits64) : ReadsBack depth (.int n) := by
  intro level fuel rest ends enough
  obtain ⟨fuel, rfl⟩ := Nat.exists_eq_add_one_of_ne_zero (Nat.ne_zero_of_lt enough)
  have chars : prettyChars level (.int n) = (toString n).toList := by rw [prettyChars, compactChars] <;> nofun
  rw [chars]
  cases n with
  | ofNat k =>
    show readValue? depth (fuel + 1) ((toString k).toList ++ rest) = _
    rw [readValue?_digits (Digits.allDigits_toString k) (Digits.toString_ne_nil k), readNumber?_toString false k ends,
      ofDigits?_natCast small]
    rfl
  | negSucc k =>
    show readValue? depth (fuel + 1) (("-" ++ toString (k + 1)).toList ++ rest) = _
    rw [String.toList_append]
    show readValue? depth (fuel + 1) ('-' :: ((toString (k + 1)).toList ++ rest)) = _
    rw [readValue?_minus, readNumber?_toString true (k + 1) ends, ofDigits?_negSucc small]
    rfl

theorem readsBack_double (depth : Nat) (x : Double) : ReadsBack depth (.double x) := by
  intro level fuel rest ends enough
  obtain ⟨fuel, rfl⟩ := Nat.exists_eq_add_one_of_ne_zero (Nat.ne_zero_of_lt enough)
  obtain ⟨whole, fraction, exponent, h, text, read⟩ := exists_text x
  have back := read rest ends
  have chars : prettyChars level (.double x) = x.text.toList := by rw [prettyChars, compactChars] <;> nofun
  rw [chars, text, Double.signText]
  cases sign : x.negative with
  | false =>
    rw [sign, numeral, List.append_assoc] at back
    rw [numeral]
    show readValue? depth (fuel + 1) (whole ++ _ ++ rest) = _
    rw [List.append_assoc, readValue?_digits h.digits h.nonempty, back]
  | true =>
    rw [sign] at back
    show readValue? depth (fuel + 1) ('-' :: (numeral whole fraction exponent ++ rest)) = _
    rw [readValue?_minus, back]

theorem readsBack_of_fits {depth : Nat} {v : Value} (fits : v.Fits depth) (keyed : v.isWellKeyed = true) :
    ReadsBack depth v := by
  -- on the limits and not on the value, so that the depth of a container is a successor
  induction fits with
  | null depth =>
    intro level fuel rest _ enough
    obtain ⟨fuel, rfl⟩ := Nat.exists_eq_add_one_of_ne_zero (Nat.ne_zero_of_lt enough)
    rfl
  | bool depth b =>
    intro level fuel rest _ enough
    obtain ⟨fuel, rfl⟩ := Nat.exists_eq_add_one_of_ne_zero (Nat.ne_zero_of_lt enough)
    cases b <;> rfl
  | int depth small => exact readsBack_int depth small
  | double depth x => exact readsBack_double depth x
  | string depth s =>
    intro level fuel rest _ enough
    obtain ⟨fuel, rfl⟩ := Nat.exists_eq_add_one_of_ne_zero (Nat.ne_zero_of_lt enough)
    exact readValue?_quote s rest
  | @array depth items all ih =>
    intro level fuel rest _ enough
    obtain ⟨fuel, rfl⟩ := Nat.exists_eq_add_one_of_ne_zero (Nat.ne_zero_of_lt enough)
    have each : ∀ w ∈ items, ReadsBack depth w := fun w hw => ih w hw ((Value.areWellKeyed_iff items).1 keyed w hw)
    cases items with
    | nil => rfl
    | cons v items =>
      have chars : prettyChars level (.array (v :: items)) = '[' :: prettyItems level true (v :: items) := by
        rw [prettyChars]
        nofun
      rw [chars, List.length_cons] at enough
      rw [chars, List.cons_append]
      exact readValue?_array (readItems?_prettyItems (List.cons_ne_nil _ _) each (by omega) rest)
  | @object depth members all ih =>
    intro level fuel rest _ enough
    obtain ⟨fuel, rfl⟩ := Nat.exists_eq_add_one_of_ne_zero (Nat.ne_zero_of_lt enough)
    obtain ⟨nodup, values⟩ := (Document.isWellKeyed_iff members).1 keyed
    have each : ∀ m ∈ members, ReadsBack depth m.2 := fun m hm => ih m hm (values m hm)
    cases members with
    | nil => rfl
    | cons m members =>
      have chars : prettyChars level (.object (m :: members)) = '\x7b' :: prettyMembers level true (m :: members) := by
        rw [prettyChars]
        nofun
      have same : Document.ofMembers (m :: members) = m :: members := Document.overlay_of_nodup nodup
      rw [chars, List.length_cons] at enough
      have read := readMembers?_prettyMembers (List.cons_ne_nil _ _) each (Nat.lt_of_succ_lt_succ enough) rest
      rw [chars, List.cons_append, readValue?_object read, same]

theorem read?_pretty {v : Value} (fits : v.Fits maxDepth) (keyed : v.isWellKeyed = true) :
    read? (pretty v) = some v := by
  have back := readsBack_of_fits fits keyed 0 (2 * (prettyChars 0 v).length + 2) [] nofun (by omega)
  rw [List.append_nil] at back
  simp only [read?, pretty, String.toList_ofList, back]
  rfl

end Json

end BucketBench
