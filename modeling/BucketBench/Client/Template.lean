import BucketBench.Error

set_option autoImplicit false

/-!
# Command templates

A template has marks `{}` that are filled with arguments from left to right. Filling goes on behind the
argument, so an argument is copied as it is even when it holds marks itself.
-/

namespace BucketBench.Template

/-- How many marks a text has, counted from the left without overlaps. -/
def countMarks : List Char → Nat
  | '{' :: '}' :: rest => countMarks rest + 1
  | _ :: rest => countMarks rest
  | [] => 0

def splitMark? : List Char → Option (List Char × List Char)
  | '{' :: '}' :: rest => some ([], rest)
  | c :: rest => (splitMark? rest).map fun (a, b) => (c :: a, b)
  | [] => none

def fillMarks : List (List Char) → List Char → List Char
  | [], rest => rest
  | a :: args, rest =>
    match splitMark? rest with
    | some (before, after) => before ++ a ++ fillMarks args after
    | none => fillMarks args rest

def mismatch (template : String) (marks args : Nat) : Error :=
  .invalidArgument s!"command template '{template}' has {marks} placeholders but {args} arguments were given"

/-- Fills a template; there has to be one argument for each mark. -/
def fill (template : String) (args : List String) : Except Error String :=
  let marks := countMarks template.toList
  if marks = args.length then .ok (String.ofList (fillMarks (args.map String.toList) template.toList))
  else .error (mismatch template marks args.length)

/-- Fills the first mark, if there is one. -/
def fillFirst (template arg : String) : String :=
  match splitMark? template.toList with
  | some (before, after) => String.ofList (before ++ arg.toList ++ after)
  | none => template

end BucketBench.Template
