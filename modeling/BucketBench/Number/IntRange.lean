set_option autoImplicit false

/-! # Ranges of whole numbers, those that fit into a number of bits among them -/

namespace BucketBench

/-- The whole numbers between two bounds, which belong to them. -/
structure IntRange where
  low : Int
  high : Int
deriving DecidableEq

namespace IntRange

instance : Membership Int IntRange := ⟨fun r n => r.low ≤ n ∧ n ≤ r.high⟩

instance (n : Int) (r : IntRange) : Decidable (n ∈ r) := inferInstanceAs (Decidable (r.low ≤ n ∧ n ≤ r.high))

def word32 : IntRange := ⟨0, 4294967295⟩

def int32 : IntRange := ⟨-2147483648, 2147483647⟩

def word64 : IntRange := ⟨0, 18446744073709551615⟩

def int64 : IntRange := ⟨-9223372036854775808, 9223372036854775807⟩

def bits64 : IntRange := ⟨int64.low, word64.high⟩

def bits128 : IntRange :=
  ⟨-170141183460469231731687303715884105728, 340282366920938463463374607431768211455⟩

end IntRange

end BucketBench
