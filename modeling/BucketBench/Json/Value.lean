import BucketBench.Number.Shortest

set_option autoImplicit false

/-!
# Freeform values and documents

A value is what a JSON text denotes, with whole numbers and doubles kept apart and the members of an object
kept in order. Two equalities matter: `=` sees the order of members and the sign of zero, `Value.same` sees
neither. Documents are the objects among the values; their operations keep a member's place when it is
replaced and fill the place of a removed member with the last one.
-/

namespace BucketBench

inductive Value where
  | null
  | bool (b : Bool)
  | int (n : Int)
  | double (x : Double)
  | string (s : String)
  | array (items : List Value)
  | object (members : List (String × Value))
deriving Inhabited

/-- The members of an object, in order. -/
abbrev Document := List (String × Value)

namespace Value

/-- Induction with the hypothesis for every element of an array and every member of an object. -/
@[elab_as_elim]
theorem induct {motive : Value → Prop} (null : motive .null) (bool : ∀ b, motive (.bool b))
    (int : ∀ n, motive (.int n)) (double : ∀ x, motive (.double x)) (string : ∀ s, motive (.string s))
    (array : ∀ items, (∀ v ∈ items, motive v) → motive (.array items))
    (object : ∀ members : Document, (∀ m ∈ members, motive m.2) → motive (.object members)) (v : Value) :
    motive v :=
  Value.rec (motive_1 := motive) (motive_2 := fun items => ∀ v ∈ items, motive v)
    (motive_3 := fun members => ∀ m ∈ members, motive m.2) (motive_4 := fun m => motive m.2)
    null bool int double string array object (by simp)
    (fun _ _ h t => by simpa using ⟨h, t⟩) (by simp)
    (fun _ _ h t => by simpa using ⟨h, fun k w hm => t (k, w) hm⟩) (fun _ _ h => h) v

def asObject? : Value → Option Document
  | .object members => some members
  | _ => none

def isArray : Value → Bool
  | .array _ => true
  | _ => false

def isObject : Value → Bool
  | .object _ => true
  | _ => false

def isNull : Value → Bool
  | .null => true
  | _ => false

end Value

namespace Document

def get? (key : String) : Document → Option Value
  | [] => none
  | (k, v) :: rest => if k = key then some v else get? key rest

def contains (key : String) (d : Document) : Bool := (d.get? key).isSome

def keys (d : Document) : List String := d.map (·.1)

def values (d : Document) : List Value := d.map (·.2)

/-- Writes a member: in its place when the key is there, otherwise at the end. -/
def insert (key : String) (value : Value) : Document → Document
  | [] => [(key, value)]
  | (k, v) :: rest => if k = key then (k, value) :: rest else (k, v) :: insert key value rest

/-- The last member moved to the front, as it fills the place before the others. -/
def lastFirst (d : Document) : Document :=
  match d.getLast? with
  | none => []
  | some m => m :: d.dropLast

/-- Removes a member; the last member fills its place. -/
def remove (key : String) : Document → Document
  | [] => []
  | (k, v) :: rest => if k = key then lastFirst rest else (k, v) :: remove key rest

/-- Writes the members of `top` one after the other. -/
def overlay (base top : Document) : Document := top.foldl (fun d m => d.insert m.1 m.2) base

/-- The document with the given members, a repeated key keeping its first place and its last value. -/
def ofMembers (members : List (String × Value)) : Document := overlay [] members

@[simp] theorem get?_nil (key : String) : get? key [] = none := rfl

theorem get?_cons (key : String) (m : String × Value) (rest : Document) :
    get? key (m :: rest) = if m.1 = key then some m.2 else get? key rest := rfl

theorem get?_insert (key other : String) (value : Value) (d : Document) :
    (d.insert key value).get? other = if key = other then some value else d.get? other := by
  induction d with
  | nil => simp [insert, get?]
  | cons m rest ih =>
    obtain ⟨k, v⟩ := m
    by_cases h : k = key
    · subst h
      by_cases e : k = other <;> simp [insert, get?, e]
    · by_cases e : k = other
      · subst e
        simp [insert, get?, h, Ne.symm h]
      · simp [insert, get?, h, e, ih]

@[simp] theorem get?_insert_self (key : String) (value : Value) (d : Document) :
    (d.insert key value).get? key = some value := by simp [get?_insert]

theorem get?_eq_none_iff (key : String) (d : Document) : d.get? key = none ↔ key ∉ d.keys := by
  induction d with
  | nil => simp [keys]
  | cons m rest ih =>
    by_cases h : m.1 = key
    · simp [get?_cons, keys, h]
    · simp only [keys, List.map_cons, List.mem_cons] at *
      simp [get?_cons, h, ih, Ne.symm h]

theorem keys_insert_of_mem {key : String} {d : Document} (value : Value) (h : key ∈ d.keys) :
    (d.insert key value).keys = d.keys := by
  induction d with
  | nil => simp [keys] at h
  | cons m rest ih =>
    obtain ⟨k, v⟩ := m
    by_cases e : k = key
    · simp [insert, keys, e]
    · have : key ∈ keys rest := by simpa [keys, Ne.symm e] using h
      simpa [insert, keys, e] using ih this

theorem insert_of_not_mem {key : String} {d : Document} (value : Value) (h : key ∉ d.keys) :
    d.insert key value = d ++ [(key, value)] := by
  induction d with
  | nil => rfl
  | cons m rest ih =>
    obtain ⟨k, v⟩ := m
    simp only [keys, List.map_cons, List.mem_cons, not_or] at h
    simp [insert, Ne.symm h.1, ih h.2]

end Document

namespace Value

mutual

/-- Equality as the store compares: members in any order, doubles as numbers, kinds of numbers apart. -/
def same : Value → Value → Bool
  | .null, .null => true
  | .bool a, .bool b => a == b
  | .int a, .int b => a == b
  | .double a, .double b => a.same b
  | .string a, .string b => a == b
  | .array a, .array b => sameItems a b
  | .object a, .object b => a.length == b.length && sameMembers a b
  | _, _ => false

def sameItems : List Value → List Value → Bool
  | [], [] => true
  | a :: as, b :: bs => same a b && sameItems as bs
  | _, _ => false

/-- Every member has its equal under the same key of the other document. -/
def sameMembers : Document → Document → Bool
  | [], _ => true
  | (k, v) :: rest, other =>
    (match Document.get? k other with
      | some w => same v w
      | none => false) && sameMembers rest other

end

/-- Whether a list of values has one equal to `v`. -/
def isIn (v : Value) (items : List Value) : Bool := items.any fun item => item.same v

end Value

end BucketBench
