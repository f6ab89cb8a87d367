import Kaskade.LocalDeserializers

/-!
# Serializers

How the producer turns the text of a field into octets: `kaskade.serializers.base` and the
fixed, JSON and bytes serializers of `kaskade.serializers.primitives`.
-/

namespace Kaskade

open Python

def serializationError (message : Text) : PyException := ⟨.serializationError, message⟩

/-- `str.lower` of one code point, as far as it gives an ASCII letter: only the ASCII
capitals and the Kelvin sign have one. -/
def lowerChr (c : CodePoint) : CodePoint :=
  if 0x41 ≤ c.val ∧ c.val ≤ 0x5a then Fin.ofNat 0x110000 (c.val + 0x20)
  else if c.val = 0x212a then chr 'k'
  else c

variable {F E : Type} [PyFloat F] (py : Interpreter F E)

/-- `parse_json`: only bad syntax is reported as a `SerializationError`. -/
def parseJson (t : Text) : Outcome (Value F E) :=
  match Python.loads py.jsonLimits t with
  | .ok v => .ok v
  | .error (.syntaxError message remaining) =>
    let position := t.length - remaining
    let reason := text message
    .error (serializationError (text "Invalid JSON, " ++ (reason.take 1).map lowerChr
      ++ reason.drop 1 ++ text " at line " ++ natText (Interpreter.lineOf t position)
      ++ text ", column " ++ natText (Interpreter.columnOf t position)))
  | .error failure => .error (py.jsonException t failure)

def compactJson (content : Value F E) : Outcome Bytes := do
  let t ← py.dumps .compact false content
  py.encodeUtf8 t

def jsonSerialize (validator : Option (Validator F E)) (t : Text) : Outcome Bytes := do
  let content ← parseJson py t
  match validator with
  | none => compactJson py content
  | some validationError =>
    match ← validationError content with
    | none => compactJson py content
    | some message => .error (serializationError message)

def booleanSerialize (t : Text) : Outcome Bytes :=
  let value := (strip t).map lowerChr
  if value = text "true" then .ok [1]
  else if value = text "false" then .ok [0]
  else .error (serializationError (text "Expected true or false"))

/-- `Struct.pack` of a signed big-endian number of so many octets. -/
def packInt (size : ℕ) (value : ℤ) : Bytes :=
  let residue := (value % 2 ^ (8 * size)).toNat
  (List.range size).map (fun i => byte (residue / 256 ^ (size - 1 - i) % 256))

/-- `IntegerSerializer` of so many octets. -/
def integerSerialize (size : ℕ) (label : Text) (t : Text) : Outcome Bytes :=
  let minimum : ℤ := -2 ^ (8 * size - 1)
  let maximum : ℤ := 2 ^ (8 * size - 1) - 1
  match parseInt? py.jsonLimits.digits (strip t) with
  | none => .error (serializationError (text "Expected " ++ label))
  | some value =>
    if minimum ≤ value ∧ value ≤ maximum then .ok (packInt size value)
    else .error (serializationError (text "Expected " ++ label ++ text " between "
      ++ intText minimum ++ text " and " ++ intText maximum))

/-- `_base64`: only a malformed ASCII text is reported as a `SerializationError`. -/
def base64Serialize (t : Text) : Outcome Bytes :=
  let joined := (split t).flatten
  if joined.all isAscii then
    match a2bBase64 joined with
    | some data => .ok data
    | none => .error (serializationError (text "Invalid Base64"))
  else .error ⟨.valueError, text "string argument should contain only ASCII characters"⟩

def hexSerialize (t : Text) : Outcome Bytes :=
  match fromHex t with
  | some data => .ok data
  | none => .error (serializationError (text "Invalid hexadecimal bytes"))

/-- An item that `bytes` accepts. -/
def octet? : Value F E → Option UInt8
  | .int i => if 0 ≤ i ∧ i ≤ 255 then some (byte i.toNat) else none
  | _ => none

def byteArrayError : PyException :=
  serializationError (text "Expected a JSON array of integers from 0 to 255")

/-- `bytes(values)`, if the value is a list of integers from 0 to 255. -/
def bytesOf : Value F E → Outcome Bytes
  | .list items =>
    match items.mapM octet? with
    | some data => .ok data
    | none => .error byteArrayError
  | _ => .error byteArrayError

/-- `_byte_array`: only bad syntax and other values are reported as a `SerializationError`. -/
def byteArraySerialize (t : Text) : Outcome Bytes :=
  if strip t = [] then bytesOf (F := F) (E := E) (.list [])
  else
    match (Python.loads py.jsonLimits t : Except JsonFailure (Value F E)) with
    | .ok v => bytesOf v
    | .error (.syntaxError _ _) => .error byteArrayError
    | .error failure => .error (py.jsonException t failure)

/-- A match of `ESCAPE_PATTERN` at the start of a text: its octet and what follows. -/
def escape? : Text → Option (UInt8 × Text)
  | c :: d :: t =>
    if c ≠ chr '\\' then none
    else if d = chr '\\' then some (0x5c, t)
    else if d = chr 'x' then
      match t with
      | a :: b :: rest =>
        match hexValue? a, hexValue? b with
        | some high, some low => some (byte (high * 16 + low), rest)
        | _, _ => none
      | _ => none
    else none
  | _ => none

theorem escape?_length {t rest : Text} {b : UInt8} (h : escape? t = some (b, rest)) :
    rest.length < t.length := by
  unfold escape? at h
  split at h
  · split_ifs at h with hc hd hx
    · obtain ⟨-, rfl⟩ := Prod.mk.inj (Option.some.inj h)
      simp only [List.length_cons]
      omega
    · split at h
      · split at h
        · obtain ⟨-, rfl⟩ := Prod.mk.inj (Option.some.inj h)
          simp only [List.length_cons]
          omega
        · cases h
      · cases h
  · cases h

/-- `ESCAPE_PATTERN.finditer`: the escapes, each with the plain text before it, and the
plain text after the last. -/
def findEscapes (t : Text) : List (Text × UInt8) × Text :=
  match _h : escape? t with
  | some (b, rest) =>
    let (found, last) := findEscapes rest
    (([], b) :: found, last)
  | none =>
    match t with
    | [] => ([], [])
    | c :: t' =>
      match findEscapes t' with
      | ([], last) => ([], c :: last)
      | ((plain, b) :: found, last) => ((c :: plain, b) :: found, last)
termination_by t.length
decreasing_by
  · exact escape?_length _h
  · simp

/-- `_ascii`: printable ASCII without a backslash. -/
def asciiBytes (t : Text) : Outcome Bytes :=
  if t.all (fun c => 0x20 ≤ c.val && c.val ≤ 0x7e && c != chr '\\') then
    .ok (t.map (fun c => byte c.val))
  else .error (serializationError
    (text "Escaped bytes accept printable ASCII, \\\\, and \\xhh escapes"))

def escapedSerialize (t : Text) : Outcome Bytes := do
  let (found, last) := findEscapes t
  let parts ← found.mapM (fun pe => (asciiBytes pe.1).map (· ++ [pe.2]))
  let tail ← asciiBytes last
  return parts.flatten ++ tail

def bytesSerialize : BytesEncoding → Text → Outcome Bytes
  | .base64 => base64Serialize
  | .hex => hexSerialize
  | .byteArray => byteArraySerialize py
  | .escaped => escapedSerialize

/-- The serializers that need neither a schema nor floating-point text. -/
inductive PrimitiveSerializer where
  | string
  | boolean
  | integer
  | long
  | json
  | bytes (encoding : BytesEncoding)

def PrimitiveSerializer.serialize : PrimitiveSerializer → Text → Outcome Bytes
  | .string => py.encodeUtf8
  | .boolean => booleanSerialize
  | .integer => integerSerialize py 4 (text "a 32-bit integer")
  | .long => integerSerialize py 8 (text "a 64-bit integer")
  | .json => jsonSerialize py none
  | .bytes encoding => bytesSerialize py encoding

end Kaskade
