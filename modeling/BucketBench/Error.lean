import BucketBench.Text.Blank

set_option autoImplicit false

/-!
# What can go wrong

One type of errors for the whole suite. Each constructor is a kind of failure and carries its cause; the
wording of every cause is in `message` functions here and nowhere else. Causes whose wording belongs to a
reader of some format or to the database server carry no text at all.
-/

namespace BucketBench

inductive FileFault where
  | notFound
  | alreadyExists
  | notADirectory
  | isADirectory
  | nameTooLong
  | notText
  | nulInName
  | other (text : String)
deriving DecidableEq

def FileFault.message : FileFault → String
  | .notFound => "No such file or directory (os error 2)"
  | .alreadyExists => "File exists (os error 17)"
  | .notADirectory => "Not a directory (os error 20)"
  | .isADirectory => "Is a directory (os error 21)"
  | .nameTooLong => "File name too long (os error 36)"
  | .notText => "stream did not contain valid UTF-8"
  | .nulInName => "file name contained an unexpected NUL byte"
  | .other text => text

inductive SecretFault where
  | notSet (id : String)
  | variableNotSet (id name : String)
  | keyNotHex
  | keySize
  | notAToken
  | notBase64
  | tooShort
  | notAuthentic
  | notText
  | unresolved (id : String)
  | other (text : String)
deriving DecidableEq

def SecretFault.message : SecretFault → String
  | .notSet id => s!"secret '{id}' not set"
  | .variableNotSet id name => s!"secret '{id}' not set ({name})"
  | .keyNotHex => "master key is not valid hex"
  | .keySize => "master key must be exactly 32 bytes"
  | .notAToken => "value is not an encrypted token"
  | .notBase64 => "encrypted token is not valid base64"
  | .tooShort => "encrypted token is too short"
  | .notAuthentic => "decryption failed: wrong key or tampered token"
  | .notText => "decrypted secret is not valid UTF-8"
  | .unresolved id => s!"secret '{id}' not resolved"
  | .other text => text

inductive ConfigFault where
  | missingKey (key : String)
  | notAMapping (subject : String)
  | noLookup (key : String)
  | mismatch (text : String)
  | otherMismatch
  | settings
  | other (text : String)
deriving DecidableEq

def ConfigFault.message : ConfigFault → String
  | .missingKey key => s!"missing key '{key}'"
  | .notAMapping subject => s!"{subject} is not a mapping"
  | .noLookup key => s!"cannot look up '{key}' in a non-mapping value"
  | .mismatch text => text
  | .otherMismatch => ""
  | .settings => ""
  | .other text => text

inductive StoreFault where
  | onlyOperators
  | unknownOperator (operator : String)
  | operandNotADocument (operator : String)
  | notADocument (field part path : String)
  | refused
  | noUsername
  | other (text : String)
deriving DecidableEq

def StoreFault.message : StoreFault → String
  | .onlyOperators => "update document must only contain operators"
  | .unknownOperator operator => s!"unsupported update operator '{operator}'"
  | .operandNotADocument operator => s!"update operator {operator} expects a document"
  | .notADocument field part path =>
    s!"cannot create field '{field}' in non-document '{part}' for '{path}'"
  | .refused => ""
  | .noUsername =>
    "Kind: An invalid argument was provided: No username provided for PLAIN authentication, labels: \x7b\x7d, "
      ++ "source: None, server response: None"
  | .other text => text

/-- The kinds of errors, as they are reported. -/
inductive ErrorKind where
  | client
  | config
  | invalidArgument
  | secret
  | store
  | command
  | assertion
  | file
  | yaml
  | json
deriving DecidableEq

inductive Error where
  | client (operation text : String)
  | config (fault : ConfigFault)
  | invalidArgument (text : String)
  | secret (fault : SecretFault)
  | store (fault : StoreFault)
  | command (text : String)
  | assertion (text : String)
  | file (fault : FileFault)
  | yaml
  | json
deriving DecidableEq

namespace Error

def kind : Error → ErrorKind
  | .client .. => .client
  | .config _ => .config
  | .invalidArgument _ => .invalidArgument
  | .secret _ => .secret
  | .store _ => .store
  | .command _ => .command
  | .assertion _ => .assertion
  | .file _ => .file
  | .yaml => .yaml
  | .json => .json

/-- The full text of an error, its kind in front. -/
def display : Error → String
  | .client operation text => s!"{operation} failed: {text}"
  | .config fault => s!"configuration error: {fault.message}"
  | .invalidArgument text => s!"invalid argument: {text}"
  | .secret fault => s!"secret error: {fault.message}"
  | .store fault => s!"database error: {fault.message}"
  | .command text => s!"command error: {text}"
  | .assertion text => s!"assertion failed: {text}"
  | .file fault => s!"I/O error: {fault.message}"
  | .yaml => "YAML error: "
  | .json => "JSON error: "

/-- The text that suites look at: of a client error the bare message of the service. -/
def message : Error → String
  | .client _ text => text
  | e => e.display

/-- Whether this is a client error whose message holds the given text. -/
def clientMessageContains (e : Error) (needle : String) : Bool :=
  match e with
  | .client _ text => Text.contains needle text
  | _ => false

/-- Whether the wording is this library's own; otherwise only the kind of the error is fixed. -/
def hasOwnWording : Error → Bool
  | .config .settings => false
  | .config .otherMismatch => false
  | .store .refused => false
  | .yaml => false
  | .json => false
  | _ => true

end Error

end BucketBench
