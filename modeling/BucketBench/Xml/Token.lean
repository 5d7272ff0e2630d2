import BucketBench.Text.Blank

set_option autoImplicit false

/-!
# Tokens of XML

`Token.scan` reads a document into tags and texts. Declarations, comments, instructions, marked sections and
attributes have to be well formed and leave no token. The first thing that is not well formed leaves the token
`fault`, and nothing is read after it; a document that merely stops leaves no fault. Tags are counted here and
not matched: whose end an end tag is, the reader of elements decides.
-/

namespace BucketBench.Xml

/-- A name with the part before its colon, which is empty when there is no colon. -/
structure Name where
  space : String
  base : String
deriving DecidableEq

def Name.isPlain (n : Name) (base : String) : Bool := n.space == "" && n.base == base

inductive Token where
  | opening (name : Name)
  | empty (name : Name)
  | closing (name : Name)
  | text (raw : List Char)
  | fault
deriving DecidableEq

/-! ## Characters -/

def isSpace (c : Char) : Bool := c == ' ' || c == '\t' || c == '\n' || c == '\r'

def isAllowed (c : Char) : Bool :=
  if c.toNat < 0x20 then isSpace c else c.toNat != 0xFFFE && c.toNat != 0xFFFF

/-- Closed ranges of the code points beyond ASCII that may begin a name. -/
def nameStartRanges : List (Nat × Nat) :=
  [(0xC0, 0xD6), (0xD8, 0xF6), (0xF8, 0x2FF), (0x370, 0x37D), (0x37F, 0x1FFF), (0x200C, 0x200D),
   (0x2070, 0x218F), (0x2C00, 0x2FEF), (0x3001, 0xD7FF), (0xF900, 0xFDCF), (0xFDF0, 0xFFFD),
   (0x10000, 0xEFFFF)]

def isNameStart (c : Char) : Bool :=
  c.isAlpha || c == ':' || c == '_' || Text.inRanges nameStartRanges c.toNat

def isNamePart (c : Char) : Bool :=
  isNameStart c || c.isDigit || c == '-' || c == '.'
    || Text.inRanges [(0xB7, 0xB7), (0x300, 0x36F), (0x203F, 0x2040)] c.toNat

namespace Token

/-! ## Parts of a document -/

def skipSpaces (s : List Char) : List Char := s.dropWhile isSpace

/-- Some blanks, and what follows them. -/
def spaces? : List Char → Option (List Char)
  | c :: s => if isSpace c then some (skipSpaces s) else none
  | [] => none

/-- The characters before the first occurrence of a mark, and what follows the mark. -/
def before? (mark : List Char) : List Char → Option (List Char × List Char)
  | [] => none
  | c :: s =>
    match Text.afterLead? mark (c :: s) with
    | some rest => some ([], rest)
    | none => if isAllowed c then (before? mark s).map fun (a, rest) => (c :: a, rest) else none

def name? (s : List Char) : Option (List Char × List Char) :=
  match s.span isNamePart with
  | (c :: r, rest) => if isNameStart c then some (c :: r, rest) else none
  | ([], _) => none

def startsName (s : List Char) : Bool := s.head?.any isNameStart

/-- A name with at most one colon, and a name behind it. -/
def tagName? (s : List Char) : Option (Name × List Char) :=
  let (word, rest) := s.span isNamePart
  match Text.pieces ':' word with
  | [base] => if startsName base then some (⟨"", String.ofList base⟩, rest) else none
  | [space, base] =>
    if startsName base && (space.isEmpty || startsName space) then
      some (⟨String.ofList space, String.ofList base⟩, rest)
    else none
  | _ => none

/-- An equals sign and a quoted text, and what follows them. -/
def quoted? (s : List Char) : Option (List Char × List Char) :=
  match skipSpaces s with
  | '=' :: s =>
    match skipSpaces s with
    | '"' :: s => before? ['"'] s
    | '\'' :: s => before? ['\''] s
    | _ => none
  | _ => none

/-- The attributes of a start tag up to its end: whether the tag is empty, and what follows it. -/
def attributes? : Nat → List Char → Option (Bool × List Char)
  | 0, _ => none
  | fuel + 1, s =>
    match skipSpaces s with
    | '/' :: '>' :: rest => some (true, rest)
    | '/' :: _ => none
    | '>' :: rest => some (false, rest)
    | inside => do
      if (spaces? s).isNone then none
      let (_, rest) ← tagName? inside
      let (value, rest) ← quoted? rest
      if value.contains '<' then none
      attributes? fuel rest

/-- What is left after an attribute of an instruction with one of the values that it may have. -/
def clause? (word : String) (fits : List Char → Bool) (s : List Char) : Option (List Char) := do
  let rest ← Text.afterLead? word.toList s
  let (value, rest) ← quoted? rest
  if fits value then some rest else none

def isVersion (value : List Char) : Bool :=
  match value with
  | '1' :: '.' :: digits => digits.all Char.isDigit
  | _ => false

def isEncoding (value : List Char) : Bool :=
  value.all fun c => c.isAlphanum || c == '.' || c == '-' || c == '_'

def isAnswer (value : List Char) : Bool := value == "yes".toList || value == "no".toList

/-- A clause that may be missing; one that is there has blanks in front. -/
def optionalClause? (word : String) (fits : List Char → Bool) (s : List Char) : Option (List Char) :=
  if (Text.afterLead? word.toList (skipSpaces s)).isNone then some s
  else (spaces? s).bind (clause? word fits)

def declaration? (s : List Char) : Option (List Char) := do
  let s ← clause? "version" isVersion (skipSpaces s)
  let s ← optionalClause? "encoding" isEncoding s
  let s ← optionalClause? "standalone" isAnswer s
  Text.afterLead? "?>".toList (skipSpaces s)

/-- The rest of a comment, which has no two hyphens inside. -/
def comment? (s : List Char) : Option (List Char) := do
  let (inside, rest) ← before? "-->".toList s
  if Text.containsChars "--".toList inside || inside.getLast? == some '-' then none else some rest

def instruction? (s : List Char) : Option (List Char) := do
  let (_, rest) ← name? s
  let (_, rest) ← before? "?>".toList (skipSpaces rest)
  some rest

def literal? (s : List Char) : Option (List Char) := (quoted? ('=' :: s)).map (·.2)

def externalId? (s : List Char) : Option (List Char) :=
  match Text.afterLead? "SYSTEM".toList s, Text.afterLead? "PUBLIC".toList s with
  | some s, _ => (spaces? s).bind literal?
  | _, some s => (spaces? s).bind literal? |>.bind spaces? |>.bind literal?
  | _, _ => some s

/-- Declarations of a document type inside the document, which end with a bracket. -/
def declarations? (s : List Char) : Option (List Char) := do
  let (_, rest) ← before? [']'] s
  Text.afterLead? ['>'] (skipSpaces rest)

def documentType? (s : List Char) : Option (List Char) := do
  let (_, s) ← name? (← spaces? s)
  match skipSpaces (← externalId? (skipSpaces s)) with
  | '>' :: rest => some rest
  | '[' :: rest => declarations? rest
  | _ => none

/-! ## Scanning -/

/-- Where in a document the scanner is; inside the root it counts the tags that are open. -/
inductive Place where
  | start
  | beforeType
  | beforeRoot
  | inside (depth : Nat)
  | behindRoot

def Place.ofDepth (depth : Nat) : Place := if depth = 0 then .behindRoot else .inside depth

/-- One step: the place after it, its token if it leaves one, and what is left; nothing when the document is not
well formed here. -/
abbrev Step := Option (Place × Option Token × List Char)

/-- A comment or an instruction, when one begins here. -/
def aside? (place : Place) (s : List Char) : Option Step :=
  let after (rest : Option (List Char)) : Option Step := some (rest.map fun r => (place, none, r))
  if let some s := Text.afterLead? "<!--".toList s then after (comment? s)
  else if (Text.afterLead? "<?xml ".toList s).isSome then some none
  else if let some s := Text.afterLead? "<?".toList s then after (instruction? s)
  else none

def startTag (depth : Nat) (s : List Char) : Step := do
  let (name, rest) ← tagName? s
  let (isEmpty, rest) ← attributes? (rest.length + 1) rest
  if isEmpty then some (.ofDepth depth, some (.empty name), rest)
  else some (.inside (depth + 1), some (.opening name), rest)

def endTag (depth : Nat) (s : List Char) : Step := do
  let (name, rest) ← tagName? s
  let rest ← Text.afterLead? ['>'] (skipSpaces rest)
  some (.ofDepth (depth - 1), some (.closing name), rest)

/-- The characters up to the next tag, which must not look like the end of a marked section. -/
def plainText (depth : Nat) (s : List Char) : Step :=
  let (raw, rest) := s.span (· != '<')
  if raw.all isAllowed && !Text.containsChars "]]>".toList raw then
    some (.inside depth, some (.text raw), rest)
  else none

def outside (place : Place) (s : List Char) (otherwise : Step) : Step :=
  match aside? place s with
  | some step => step
  | none =>
    match spaces? s with
    | some rest => some (place, none, rest)
    | none => otherwise

def step (place : Place) (s : List Char) : Step :=
  match place with
  | .start =>
    match Text.afterLead? "<?xml ".toList s with
    | some rest => (declaration? rest).map fun r => (.beforeType, none, r)
    | none => some (.beforeType, none, s)
  | .beforeType =>
    match Text.afterLead? "<!DOCTYPE".toList s with
    | some rest => (documentType? rest).map fun r => (.beforeRoot, none, r)
    | none => outside .beforeType s (some (.beforeRoot, none, s))
  | .beforeRoot =>
    outside .beforeRoot s (match s with
      | '<' :: rest => startTag 0 rest
      | _ => none)
  | .inside depth =>
    match aside? (.inside depth) s with
    | some step => step
    | none =>
      match s with
      | '<' :: '/' :: rest => endTag depth rest
      | '<' :: '!' :: rest => do
        let (_, rest) ← before? "]]>".toList (← Text.afterLead? "[CDATA[".toList rest)
        some (.inside depth, none, rest)
      | '<' :: rest => startTag depth rest
      | s => plainText depth s
  | .behindRoot => outside .behindRoot s none

/-- The tokens from a place on; every step but the first two reads a character. -/
def scanFrom : Nat → Place → List Char → List Token
  | 0, _, _ => []
  | _, _, [] => []
  | fuel + 1, place, s =>
    match step place s with
    | none => [.fault]
    | some (place, token, rest) =>
      match token with
      | some t => t :: scanFrom fuel place rest
      | none => scanFrom fuel place rest

/-- The tokens of a document, behind a byte order mark if there is one. -/
def scan (document : String) : List Token :=
  let s := match document.toList with
    | '\uFEFF' :: s => s
    | s => s
  scanFrom (s.length + 2) .start s

end Token

end BucketBench.Xml
