import BucketBench.Shell.Arithmetic

set_option autoImplicit false

/-!
# Escapes and formats

The two escape languages of the shell (of `echo` and of formats) and the filling of formats with arguments.
-/

namespace BucketBench.Shell

/-- A text with its escapes replaced, and whether it asks to end all output there. -/
structure Escaped where
  text : Octets
  stop : Bool

def Escaped.more (front : Octets) (e : Escaped) : Escaped := { e with text := front ++ e.text }

def isOctal (c : Char) : Bool := '0' ≤ c && c ≤ '7'

def octalByte (digits : Octets) : Char := Char.ofNat (Arithmetic.ofDigits 8 digits % 256)

def escapeOf (c : Char) : Option Char :=
  match c with
  | 'a' => some '\x07'
  | 'b' => some '\x08'
  | 'e' => some '\x1b'
  | 'f' => some '\x0c'
  | 'n' => some '\n'
  | 'r' => some '\x0d'
  | 't' => some '\t'
  | 'v' => some '\x0b'
  | '\\' => some '\\'
  | _ => none

/-- Replaces escapes. With `leadingZero` an octal escape may have a zero in front of three digits, and `\c`
ends the output. -/
def unescape (leadingZero : Bool) : Nat → Octets → Escaped
  | 0, s => ⟨s, false⟩
  | _, [] => ⟨[], false⟩
  | fuel + 1, '\\' :: c :: r =>
    if leadingZero && c = 'c' then ⟨[], true⟩
    else if isOctal c then
      let ds := if leadingZero && c = '0' then (r.take 3).takeWhile isOctal else ((c :: r).take 3).takeWhile isOctal
      let rest := if leadingZero && c = '0' then r.drop ds.length else (c :: r).drop ds.length
      (unescape leadingZero fuel rest).more [octalByte ds]
    else
      match escapeOf c with
      | some b => (unescape leadingZero fuel r).more [b]
      | none => (unescape leadingZero fuel (c :: r)).more ['\\']
  | fuel + 1, c :: r => (unescape leadingZero fuel r).more [c]

def unescapeAll (leadingZero : Bool) (s : Octets) : Escaped := unescape leadingZero (s.length + 1) s

/-! ## Formats -/

inductive Measure where
  | none
  | given (n : Nat)
  | argument

inductive Directive where
  | text (content : Octets)
  | field (flags : Octets) (width precision : Measure) (conversion : Char)
  | bad (text : Octets)

def measureOf (s : Octets) : Measure × Octets :=
  match s with
  | '*' :: r => (.argument, r)
  | s =>
    let ds := s.takeWhile Char.isDigit
    (if ds.isEmpty then .none else .given (Arithmetic.ofDigits 10 ds), s.drop ds.length)

def directive (s : Octets) : Directive × Octets :=
  let flags := s.takeWhile fun c => c ∈ ['-', '+', ' ', '#', '0']
  let (width, s) := measureOf (s.drop flags.length)
  let (precision, s) := match s with
    | '.' :: r =>
      match measureOf r with
      | (.none, r) => (.given 0, r)
      | m => m
    | s => (Measure.none, s)
  match s with
  | c :: r => (.field flags width precision c, r)
  | [] => (.bad ('%' :: flags), [])

def directives : Nat → Octets → List Directive
  | 0, _ => []
  | _, [] => []
  | fuel + 1, '%' :: '%' :: r => .text ['%'] :: directives fuel r
  | fuel + 1, '%' :: r =>
    let (d, rest) := directive r
    d :: directives fuel rest
  | fuel + 1, s =>
    let plain := s.takeWhile (· != '%')
    .text (unescapeAll false plain).text :: directives fuel (s.drop plain.length)

/-- What filling a format gives: the output, the complaints about arguments, and whether to stop. -/
structure Filled where
  output : Octets := []
  complaints : List String := []
  stop : Bool := false

def Filled.append (a b : Filled) : Filled := ⟨a.output ++ b.output, a.complaints ++ b.complaints, a.stop || b.stop⟩

def pad (left : Bool) (fill : Char) (width : Nat) (s : Octets) : Octets :=
  let missing := List.replicate (width - s.length) fill
  if left then s ++ missing else missing ++ s

/-- An argument as a number, with what is wrong with it. -/
def numberArgument (s : Octets) : Int × List String :=
  match s with
  | [] => (0, [])
  | '\'' :: c :: _ => (c.toNat, [])
  | '"' :: c :: _ => (c.toNat, [])
  | _ =>
    let t := s.dropWhile (· == ' ')
    let (sign, t) : Int × Octets := match t with
      | '-' :: r => (-1, r)
      | '+' :: r => (1, r)
      | r => (1, r)
    match Arithmetic.number? t with
    | none => (0, [String.ofList s ++ ": expected numeric value"])
    | some (n, []) => (sign * n, [])
    | some (n, _) => (sign * n, [String.ofList s ++ ": not completely converted"])

def digits (base : Nat) (upper : Bool) (n : Nat) : Octets :=
  (Nat.toDigits base n).map fun c => if upper then c.toUpper else c

/-- A number with its sign, filled up to precision and width. -/
def formatNumber (flags : Octets) (width : Nat) (precision : Option Nat) (conversion : Char) (n : Int) : Octets :=
  let signed := conversion = 'd' || conversion = 'i'
  let magnitude := if signed then n.natAbs else (n % 18446744073709551616).toNat
  let base := match conversion with
    | 'o' => 8
    | 'x' | 'X' => 16
    | _ => 10
  let body := digits base (conversion = 'X') magnitude
  let body := match precision with
    | some p => if p = 0 && magnitude = 0 then [] else pad false '0' p body
    | none => body
  let lead : Octets :=
    if signed && n < 0 then ['-']
    else if signed && flags.contains '+' then ['+']
    else if signed && flags.contains ' ' then [' ']
    else if flags.contains '#' && magnitude ≠ 0 then
      match conversion with
      | 'o' => ['0']
      | 'x' => ['0', 'x']
      | 'X' => ['0', 'X']
      | _ => []
    else []
  if flags.contains '-' then pad true ' ' width (lead ++ body)
  else if flags.contains '0' && precision.isNone then lead ++ pad false '0' (width - lead.length) body
  else pad false ' ' width (lead ++ body)

/-- Fills one field with the arguments it takes; gives the rest of the arguments. -/
def fillField (flags : Octets) (width precision : Measure) (conversion : Char) (args : List Octets) :
    Filled × List Octets :=
  let take (m : Measure) (args : List Octets) : Option Int × List Octets :=
    match m with
    | .none => (none, args)
    | .given n => (some n, args)
    | .argument => (some (numberArgument (args.headD [])).1, args.tail)
  let (w, args) := take width args
  let (p, args) := take precision args
  let flags := if (w.getD 0) < 0 then '-' :: flags else flags
  let w := (w.getD 0).natAbs
  let p := match p with
    | some n => if n < 0 then none else some n.toNat
    | none => none
  let arg := args.headD []
  let cut (s : Octets) : Octets := match p with
    | some n => s.take n
    | none => s
  let left := flags.contains '-'
  match conversion with
  | 's' => ({ output := pad left ' ' w (cut arg) }, args.tail)
  | 'b' =>
    let e := unescapeAll true arg
    ({ output := pad left ' ' w (cut e.text), stop := e.stop }, args.tail)
  | 'c' => ({ output := pad left ' ' w (arg.take 1) }, args.tail)
  | _ =>
    if conversion ∈ ['d', 'i', 'u', 'o', 'x', 'X'] then
      let (n, complaints) := numberArgument arg
      ({ output := formatNumber flags w p conversion n, complaints := complaints }, args.tail)
    else ({ complaints := ["%" ++ String.singleton conversion ++ ": invalid directive"], stop := true }, args)

def fillOnce : List Directive → List Octets → Filled × List Octets
  | [], args => ({}, args)
  | .text t :: rest, args =>
    let (f, args) := fillOnce rest args
    ({ f with output := t ++ f.output }, args)
  | .bad t :: _, args => ({ complaints := [String.ofList t ++ ": invalid directive"], stop := true }, args)
  | .field flags width precision conversion :: rest, args =>
    let (f, args) := fillField flags width precision conversion args
    if f.stop then (f, args)
    else
      let (g, args) := fillOnce rest args
      (f.append g, args)

/-- Fills a format, again and again as long as it takes arguments and some are left. -/
def fillFormat (ds : List Directive) : Nat → List Octets → Filled
  | 0, _ => {}
  | fuel + 1, args =>
    let (f, rest) := fillOnce ds args
    if f.stop || rest.isEmpty || rest.length = args.length then f else f.append (fillFormat ds fuel rest)

def format (s : Octets) (args : List Octets) : Filled :=
  fillFormat (directives (s.length + 1) s) (args.length + 1) args

end BucketBench.Shell
