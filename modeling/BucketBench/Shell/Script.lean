set_option autoImplicit false

/-!
# Shell scripts

What a shell command is made of. The shell works on bytes, and a byte is held as the character of its code,
so that every text here is a list of characters below 256.
-/

namespace BucketBench.Shell

abbrev Octets := List Char

/-- What `${name…}` does besides giving the value. -/
inductive Change where
  /-- Another text when the parameter is not set, or also when it is empty. -/
  | default (orEmpty : Bool)
  /-- The same, and the parameter keeps it. -/
  | assign (orEmpty : Bool)
  /-- Another text when the parameter is set. -/
  | alternative (unlessEmpty : Bool)
  /-- The value without a match in front. -/
  | cutFront (longest : Bool)
  /-- The value without a match at the end. -/
  | cutBack (longest : Bool)
  /-- How many bytes the value has. -/
  | length
deriving DecidableEq

mutual

/-- A part of a word. What a quoted part expands to is never split or matched. -/
inductive Part where
  | text (quoted : Bool) (content : Octets)
  | parameter (quoted : Bool) (name : Octets) (change : Option Change) (operand : List Part)
  | output (quoted : Bool) (script : List Command)
  | number (quoted : Bool) (expression : List Part)

inductive Redirect where
  | toFile (descriptor : Nat) (append : Bool) (path : List Part)
  | toDescriptor (descriptor : Nat) (other : List Part)
  | fromFile (path : List Part)
  | fromText (content : List Part)

inductive Command where
  | simple (line : Nat) (assignments : List (Octets × List Part)) (words : List (List Part))
      (redirects : List Redirect)
  | pipeline (stages : List Command)
  | negated (command : Command)
  | andThen (first second : Command)
  | orElse (first second : Command)
  | background (command : Command)
  | group (body : List Command)
  | subshell (body : List Command)
  | redirected (command : Command) (redirects : List Redirect)
  | ifThen (condition body otherwise : List Command)
  | loop (whileTrue : Bool) (condition body : List Command)
  | forEach (name : Octets) (words : List (List Part)) (body : List Command)
  | select (word : List Part) (branches : List (List (List Part) × List Command))
  | define (name : Octets) (body : Command)

end

abbrev Word := List Part

def Part.isOutput : Part → Bool
  | .output .. => true
  | _ => false

def Redirect.isInput : Redirect → Bool
  | .fromFile _ => true
  | .fromText _ => true
  | _ => false

abbrev Script := List Command

inductive SyntaxFault where
  | unterminatedQuote
  | unterminatedBackquote
  | missingBrace
  | missingParentheses
  | badFunctionName
  | badLoopVariable
  | unexpected (token : String)
  | expecting (token expected : String)
  | expectingWord (token : String)
deriving DecidableEq

def SyntaxFault.message : SyntaxFault → String
  | .unterminatedQuote => "Unterminated quoted string"
  | .unterminatedBackquote => "EOF in backquote substitution"
  | .missingBrace => "Missing '\x7d'"
  | .missingParentheses => "Missing '))'"
  | .badFunctionName => "Bad function name"
  | .badLoopVariable => "Bad for loop variable"
  | .expectingWord token => token ++ " unexpected (expecting word)"
  | .unexpected token => token ++ " unexpected"
  | .expecting token expected => token ++ " unexpected (expecting \"" ++ expected ++ "\")"

end BucketBench.Shell
