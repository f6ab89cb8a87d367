import Kaskade.JsonPrinting
import Kaskade.UnicodeCodecs

/-!
# Reading JSON text

`json.loads`, scanning from left to right as the interpreter's decoder does. It reports
bad syntax, an integer with more digits than `int` converts, and nesting deeper than the
recursion limit, whichever it meets first. A failure keeps the length of the text that
remained, from which the position follows.
-/

namespace Kaskade.Python

/-- The interpreter limits that `json.loads` can run into. -/
structure JsonLimits where
  /-- The most digits `int` converts. -/
  digits : ℕ
  /-- The deepest nesting the decoder follows. -/
  nesting : ℕ

inductive JsonFailure where
  | syntaxError (message : String) (remaining : ℕ)
  | digitLimit
  | nestingLimit
  deriving DecidableEq

/-- A scanner returns a value and the text after it. -/
abbrev Scan (α : Type) := Except JsonFailure (α × Text)

namespace Scan

variable {α β : Type}

def andThen (s : Scan α) (f : α → Text → Scan β) : Scan β :=
  match s with
  | .error e => .error e
  | .ok (a, t) => f a t

def as (s : Scan α) (f : α → β) : Scan β := s.andThen (fun a t => .ok (f a, t))

@[simp] theorem andThen_ok (a : α) (t : Text) (f : α → Text → Scan β) :
    andThen (.ok (a, t)) f = f a t := rfl

@[simp] theorem andThen_error (e : JsonFailure) (f : α → Text → Scan β) :
    andThen (.error e) f = .error e := rfl

@[simp] theorem as_ok (a : α) (t : Text) (f : α → β) : as (.ok (a, t)) f = .ok (f a, t) := rfl

@[simp] theorem as_error (e : JsonFailure) (f : α → β) : as (.error e) f = .error e := rfl

theorem andThen_eq_ok {s : Scan α} {f : α → Text → Scan β} {r : β × Text} :
    s.andThen f = .ok r ↔ ∃ a t, s = .ok (a, t) ∧ f a t = .ok r := by
  rcases s with e | ⟨a, t⟩
  · simp
  · simp

theorem as_eq_ok {s : Scan α} {f : α → β} {b : β} {t : Text} :
    s.as f = .ok (b, t) ↔ ∃ a, s = .ok (a, t) ∧ f a = b := by
  rcases s with e | ⟨a, t'⟩
  · simp
  · simp only [as_ok, Except.ok.injEq, Prod.mk.injEq]
    constructor
    · rintro ⟨rfl, rfl⟩
      exact ⟨a, ⟨rfl, rfl⟩, rfl⟩
    · rintro ⟨a', ⟨rfl, rfl⟩, rfl⟩
      exact ⟨rfl, rfl⟩

end Scan

def isJsonSpace (c : CodePoint) : Bool :=
  c = chr ' ' || c = chr '\t' || c = chr '\n' || c = chr '\r'

def skipSpace (t : Text) : Text := t.dropWhile isJsonSpace

/-- A code point of a string, and whether a `\u` escape named it. -/
abbrev StringUnit := CodePoint × Bool

/-- Where the string scanner stands: between characters, after a backslash, or inside a
`\u` escape with digits outstanding. `mark` is what remained at the escape. -/
inductive StringState where
  | plain
  | escape
  | hex (mark owed acc : ℕ)

def simpleEscape? (c : CodePoint) : Option CodePoint :=
  if c = chr '"' then some (chr '"')
  else if c = chr '\\' then some (chr '\\')
  else if c = chr '/' then some (chr '/')
  else if c = chr 'b' then some 0x08
  else if c = chr 'f' then some 0x0c
  else if c = chr 'n' then some (chr '\n')
  else if c = chr 'r' then some (chr '\r')
  else if c = chr 't' then some (chr '\t')
  else none

/-- The rest of a string literal; `start` is what remained at its opening quote. -/
def scanUnits (start : ℕ) : StringState → Text → Scan (List StringUnit)
  | .hex mark _ _, [] => .error (.syntaxError "Invalid \\uXXXX escape" mark)
  | _, [] => .error (.syntaxError "Unterminated string starting at" start)
  | .plain, c :: t =>
    if c = chr '"' then .ok ([], t)
    else if c = chr '\\' then scanUnits start .escape t
    else if c.val < 0x20 then
      .error (.syntaxError "Invalid control character at" (t.length + 1))
    else (scanUnits start .plain t).as ((c, false) :: ·)
  | .escape, c :: t =>
    if c = chr 'u' then scanUnits start (.hex (t.length + 1) 3 0) t
    else
      match simpleEscape? c with
      | none => .error (.syntaxError "Invalid \\escape" (t.length + 2))
      | some e => (scanUnits start .plain t).as ((e, false) :: ·)
  | .hex mark owed acc, c :: t =>
    match hexValue? c with
    | none => .error (.syntaxError "Invalid \\uXXXX escape" mark)
    | some d =>
      if owed ≠ 0 then scanUnits start (.hex mark (owed - 1) (acc * 16 + d)) t
      else if t.isEmpty then .error (.syntaxError "Invalid \\uXXXX escape" mark)
      else
        (scanUnits start .plain t).as ((Fin.ofNat 0x110000 (acc * 16 + d), true) :: ·)

def joinEscapes : List StringUnit → Text
  | [] => []
  | [u] => [u.1]
  | u :: w :: rest =>
    if u.2 ∧ w.2 ∧ 0xd800 ≤ u.1.val ∧ u.1.val < 0xdc00 ∧ 0xdc00 ≤ w.1.val ∧ w.1.val < 0xe000 then
      Fin.ofNat 0x110000 (0x10000 + (u.1.val - 0xd800) * 0x400 + (w.1.val - 0xdc00))
        :: joinEscapes rest
    else u.1 :: joinEscapes (w :: rest)

/-- A string literal whose opening quote has been read. -/
def scanString (t : Text) : Scan Text :=
  (scanUnits (t.length + 1) .plain t).as joinEscapes

/-- The integer digits of a number: a lone zero, or a run that starts with another digit. -/
def wholeDigits? (t : Text) : Option (Text × Text) :=
  match t with
  | [] => none
  | c :: rest =>
    if c = chr '0' then some ([c], rest)
    else if isDigit c then some (t.takeWhile isDigit, t.dropWhile isDigit)
    else none

/-- The digits of a fraction, if a point and at least one digit come next. -/
def fractionDigits (t : Text) : Text × Text :=
  match t with
  | [] => ([], t)
  | c :: rest =>
    if c = chr '.' then
      if rest.takeWhile isDigit = [] then ([], t)
      else (rest.takeWhile isDigit, rest.dropWhile isDigit)
    else ([], t)

/-- The exponent, if its letter, an optional sign and at least one digit come next. -/
def exponentPart (t : Text) : Option ℤ × Text :=
  match t with
  | [] => (none, t)
  | c :: rest =>
    if c = chr 'e' ∨ c = chr 'E' then
      let negative := rest.head? == some (chr '-')
      let signed := negative || rest.head? == some (chr '+')
      let body := if signed then rest.tail else rest
      let ds := body.takeWhile isDigit
      if ds = [] then (none, t)
      else
        let n : ℤ := digitsValue ds
        (some (if negative then -n else n), body.dropWhile isDigit)
    else (none, t)

def digitOf (c : CodePoint) : Fin 10 := Fin.ofNat 10 (c.val - 0x30)

variable {F E : Type} [PyFloat F]

def scanNumber (lim : JsonLimits) (t : Text) : Scan (Value F E) :=
  let negative := t.head? == some (chr '-')
  match wholeDigits? (if negative then t.tail else t) with
  | none => .error (.syntaxError "Expecting value" t.length)
  | some (whole, t₁) =>
    let (fraction, t₂) := fractionDigits t₁
    let (exponent, t₃) := exponentPart t₂
    if h : fraction.map digitOf ≠ [] ∨ exponent.isSome then
      .ok (.float (PyFloat.ofRepr (.literal
        ⟨negative, digitsValue whole, fraction.map digitOf, exponent, h⟩)), t₃)
    else if lim.digits < whole.length then .error .digitLimit
    else
      let n : ℤ := digitsValue whole
      .ok (.int (if negative then -n else n), t₃)

def constants : List (Text × Value F E) :=
  [(text "null", .null), (text "true", .bool true), (text "false", .bool false),
    (text "NaN", .float (PyFloat.ofRepr .nan)),
    (text "Infinity", .float (PyFloat.ofRepr (.infinity false))),
    (text "-Infinity", .float (PyFloat.ofRepr (.infinity true)))]

def scanConstant (t : Text) : Option (Value F E × Text) :=
  constants.findSome? (fun wv =>
    if wv.1.isPrefixOf t then some (wv.2, t.drop wv.1.length) else none)

/-- The items of a list up to its bracket; every turn reads at least one code point, so as
many turns as there are code points suffice. -/
def scanItems (term : Text → Scan (Value F E)) : ℕ → Text → Scan (List (Value F E))
  | 0, t => .error (.syntaxError "Expecting ',' delimiter" t.length)
  | turns + 1, t =>
    (term t).andThen fun v t₁ =>
      match skipSpace t₁ with
      | [] => .error (.syntaxError "Expecting ',' delimiter" 0)
      | c :: rest =>
        if c = chr ']' then .ok ([v], rest)
        else if c = chr ',' then (scanItems term turns (skipSpace rest)).as (v :: ·)
        else .error (.syntaxError "Expecting ',' delimiter" (rest.length + 1))

/-- A list whose opening bracket has been read. -/
def scanArray (term : Text → Scan (Value F E)) (t : Text) : Scan (Value F E) :=
  let t := skipSpace t
  if t.head? = some (chr ']') then .ok (.list [], t.tail)
  else (scanItems term (t.length + 1) t).as .list

/-- One `key: value` item. -/
def scanPair (term : Text → Scan (Value F E)) (t : Text) : Scan (Text × Value F E) :=
  if t.head? ≠ some (chr '"') then
    .error (.syntaxError "Expecting property name enclosed in double quotes" t.length)
  else
    (scanString t.tail).andThen fun k t₁ =>
      let t₂ := skipSpace t₁
      if t₂.head? ≠ some (chr ':') then .error (.syntaxError "Expecting ':' delimiter" t₂.length)
      else (term (skipSpace t₂.tail)).as (k, ·)

def scanPairs (term : Text → Scan (Value F E)) : ℕ → Text → Scan (List (Text × Value F E))
  | 0, t => .error (.syntaxError "Expecting ',' delimiter" t.length)
  | turns + 1, t =>
    (scanPair term t).andThen fun kv t₁ =>
      match skipSpace t₁ with
      | [] => .error (.syntaxError "Expecting ',' delimiter" 0)
      | c :: rest =>
        if c = chr '}' then .ok ([kv], rest)
        else if c = chr ',' then (scanPairs term turns (skipSpace rest)).as (kv :: ·)
        else .error (.syntaxError "Expecting ',' delimiter" (rest.length + 1))

/-- A dictionary whose opening brace has been read; a repeated key keeps its last value. -/
def scanObject (term : Text → Scan (Value F E)) (t : Text) : Scan (Value F E) :=
  let t := skipSpace t
  if t.head? = some (chr '}') then .ok (.dict [], t.tail)
  else (scanPairs term (t.length + 1) t).as (fun kvs => .dict (Value.ofPairs kvs))

/-- One value; `deeper` reads the values inside it, unless the nesting limit is reached. -/
def scanValue (lim : JsonLimits) (deeper : Option (Text → Scan (Value F E))) :
    Text → Scan (Value F E)
  | [] => .error (.syntaxError "Expecting value" 0)
  | c :: rest =>
    if c = chr '"' then (scanString rest).as .str
    else if c = chr '{' then deeper.elim (.error .nestingLimit) (scanObject · rest)
    else if c = chr '[' then deeper.elim (.error .nestingLimit) (scanArray · rest)
    else (scanConstant (c :: rest)).elim (scanNumber lim (c :: rest)) .ok

/-- One value, of which so many nesting levels may be entered. -/
def scanOnce (lim : JsonLimits) : ℕ → Text → Scan (Value F E)
  | 0 => scanValue lim none
  | nesting + 1 => scanValue lim (some (scanOnce lim nesting))

/-- `JSONDecoder.decode`: one value with nothing but whitespace around it. -/
def decodeDocument (lim : JsonLimits) (t : Text) : Except JsonFailure (Value F E) :=
  match scanOnce lim lim.nesting (skipSpace t) with
  | .error e => .error e
  | .ok (v, rest) =>
    let rest := skipSpace rest
    if rest.isEmpty then .ok v else .error (.syntaxError "Extra data" rest.length)

/-- `json.loads` of a text. -/
def loads (lim : JsonLimits) (t : Text) : Except JsonFailure (Value F E) :=
  if t.head? = some 0xfeff then
    .error (.syntaxError "Unexpected UTF-8 BOM (decode using utf-8-sig)" t.length)
  else decodeDocument lim t

/-- `json.detect_encoding` and the decoding it selects, with `surrogatepass`. -/
def decodeDetected (data : Bytes) : Option Text :=
  if data.take 4 = [0x00, 0x00, 0xfe, 0xff] then utf32Decode false (data.drop 4)
  else if data.take 4 = [0xff, 0xfe, 0x00, 0x00] then utf32Decode true (data.drop 4)
  else if data.take 2 = [0xfe, 0xff] then utf16Decode false (data.drop 2)
  else if data.take 2 = [0xff, 0xfe] then utf16Decode true (data.drop 2)
  else if data.take 3 = [0xef, 0xbb, 0xbf] then utf8Decode true (data.drop 3)
  else
    match data with
    | [a, b] =>
      if a = 0 then utf16Decode false data
      else if b = 0 then utf16Decode true data
      else utf8Decode true data
    | a :: b :: c :: d :: _ =>
      if a = 0 then if b = 0 then utf32Decode false data else utf16Decode false data
      else if b = 0 then if c = 0 ∧ d = 0 then utf32Decode true data else utf16Decode true data
      else utf8Decode true data
    | _ => utf8Decode true data

end Kaskade.Python
