set_option autoImplicit false

/-!
# Blanks and pieces of text

White space as the Unicode property defines it, trimming, and splitting at one character. Splitting always
gives at least one piece, and joining the pieces gives the text back.
-/

namespace BucketBench.Text

def blankRanges : List (Nat × Nat) :=
  [(0x09, 0x0D), (0x20, 0x20), (0x85, 0x85), (0xA0, 0xA0), (0x1680, 0x1680), (0x2000, 0x200A),
   (0x2028, 0x2029), (0x202F, 0x202F), (0x205F, 0x205F), (0x3000, 0x3000)]

def inRanges (ranges : List (Nat × Nat)) (n : Nat) : Bool := ranges.any fun r => r.1 ≤ n && n ≤ r.2

def isBlank (c : Char) : Bool := inRanges blankRanges c.toNat

def trimEndChars (s : List Char) : List Char := (s.reverse.dropWhile isBlank).reverse

def trimChars (s : List Char) : List Char := trimEndChars (s.dropWhile isBlank)

def trim (s : String) : String := String.ofList (trimChars s.toList)

def pieces (separator : Char) : List Char → List (List Char)
  | [] => [[]]
  | c :: rest =>
    if c = separator then [] :: pieces separator rest
    else match pieces separator rest with
      | [] => [[c]]
      | p :: ps => (c :: p) :: ps

theorem pieces_ne_nil (separator : Char) (s : List Char) : pieces separator s ≠ [] := by
  cases s with
  | nil => simp [pieces]
  | cons c rest =>
    unfold pieces
    split
    · simp
    · split <;> simp

theorem intercalate_pieces (separator : Char) (s : List Char) :
    [separator].intercalate (pieces separator s) = s := by
  induction s with
  | nil => rfl
  | cons c rest ih =>
    unfold pieces
    cases h : pieces separator rest with
    | nil => exact absurd h (pieces_ne_nil separator rest)
    | cons p ps =>
      rw [h] at ih
      split
      · rename_i e
        subst e
        simpa [List.intercalate, List.intersperse] using ih
      · cases ps with
        | nil => simpa [List.intercalate, List.intersperse] using ih
        | cons q qs => simpa [List.intercalate, List.intersperse] using ih

def split (separator : Char) (s : String) : List String := (pieces separator s.toList).map String.ofList

/-- What follows a leading text, when the text is there. -/
def afterLead? : (lead s : List Char) → Option (List Char)
  | [], s => some s
  | _ :: _, [] => none
  | a :: lead, c :: s => if a = c then afterLead? lead s else none

theorem afterLead?_append (lead s : List Char) : afterLead? lead (lead ++ s) = some s := by
  induction lead with
  | nil => rfl
  | cons a lead ih => simpa [afterLead?] using ih

theorem eq_append_of_afterLead? {lead s rest : List Char} (h : afterLead? lead s = some rest) :
    s = lead ++ rest := by
  induction lead generalizing s with
  | nil => simpa [afterLead?] using h
  | cons a lead ih =>
    cases s with
    | nil => simp [afterLead?] at h
    | cons c s =>
      by_cases e : a = c
      · subst e
        simpa [afterLead?] using ih (by simpa [afterLead?] using h)
      · simp [afterLead?, e] at h

def splitFirst? (separator : Char) : List Char → Option (List Char × List Char)
  | [] => none
  | c :: rest =>
    if c = separator then some ([], rest)
    else (splitFirst? separator rest).map fun (a, b) => (c :: a, b)

def splitLast? (separator : Char) : List Char → Option (List Char × List Char)
  | [] => none
  | c :: rest =>
    match splitLast? separator rest with
    | some (a, b) => some (c :: a, b)
    | none => if c = separator then some ([], rest) else none

def containsChars (needle : List Char) : List Char → Bool
  | [] => needle.isEmpty
  | c :: rest => (afterLead? needle (c :: rest)).isSome || containsChars needle rest

def contains (needle s : String) : Bool := containsChars needle.toList s.toList

end BucketBench.Text
