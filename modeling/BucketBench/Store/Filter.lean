import BucketBench.Store.Path

set_option autoImplicit false

/-!
# Filters

A filter is a document of dotted paths and the values expected there. An array holds whatever it contains;
an absent value equals null.
-/

namespace BucketBench

def meets (actual : Option Value) (expected : Value) : Bool :=
  match actual with
  | some (.array items) => if expected.isArray then (Value.array items).same expected else expected.isIn items
  | some v => v.same expected
  | none => expected.isNull

namespace Document

def matchesFilter (filter d : Document) : Bool := filter.all fun (path, expected) => meets (d.at? (pathKeys path)) expected

@[simp] theorem matchesFilter_nil (d : Document) : matchesFilter [] d = true := rfl

end Document

end BucketBench
