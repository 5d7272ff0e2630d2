import BucketBench.Json.Value

set_option autoImplicit false

/-!
# Values written as JSON text

`Json.compact` writes no blanks at all, `Json.pretty` indents by two. Strings escape what they must and keep
every other character as it is; doubles always show a point or an exponent.
-/

namespace BucketBench.Json

def hexDigit (n : Nat) : Char := if n < 10 then Char.ofNat (48 + n) else Char.ofNat (87 + n)

def escape (c : Char) : List Char :=
  if c = '"' then ['\\', '"']
  else if c = '\\' then ['\\', '\\']
  else if 0x20 ≤ c.toNat then [c]
  else match c.toNat with
    | 8 => ['\\', 'b']
    | 9 => ['\\', 't']
    | 10 => ['\\', 'n']
    | 12 => ['\\', 'f']
    | 13 => ['\\', 'r']
    | n => ['\\', 'u', '0', '0', hexDigit (n / 16), hexDigit (n % 16)]

def quote (s : String) : List Char := '"' :: (s.toList.flatMap escape ++ ['"'])

mutual

def compactChars : Value → List Char
  | .null => "null".toList
  | .bool true => "true".toList
  | .bool false => "false".toList
  | .int n => (toString n).toList
  | .double x => x.text.toList
  | .string s => quote s
  | .array items => '[' :: compactItems true items
  | .object members => '{' :: compactMembers true members

/-- The rest of an array, each element but the first behind a comma. -/
def compactItems (first : Bool) : List Value → List Char
  | [] => [']']
  | v :: rest => (if first then [] else [',']) ++ compactChars v ++ compactItems false rest

def compactMembers (first : Bool) : Document → List Char
  | [] => ['}']
  | (k, v) :: rest =>
    (if first then [] else [',']) ++ quote k ++ ':' :: (compactChars v ++ compactMembers false rest)

end

def compact (v : Value) : String := String.ofList (compactChars v)

def indent (depth : Nat) : List Char := '\n' :: List.replicate (2 * depth) ' '

mutual

def prettyChars (depth : Nat) : Value → List Char
  | .array [] => ['[', ']']
  | .array items => '[' :: prettyItems depth true items
  | .object [] => ['{', '}']
  | .object members => '{' :: prettyMembers depth true members
  | v => compactChars v

def prettyItems (depth : Nat) (first : Bool) : List Value → List Char
  | [] => indent depth ++ [']']
  | v :: rest =>
    (if first then [] else [',']) ++ indent (depth + 1) ++ prettyChars (depth + 1) v
      ++ prettyItems depth false rest

def prettyMembers (depth : Nat) (first : Bool) : Document → List Char
  | [] => indent depth ++ ['}']
  | (k, v) :: rest =>
    (if first then [] else [',']) ++ indent (depth + 1) ++ quote k ++ [':', ' ']
      ++ prettyChars (depth + 1) v ++ prettyMembers depth false rest

end

def pretty (v : Value) : String := String.ofList (prettyChars 0 v)

end BucketBench.Json
