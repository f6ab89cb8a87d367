import Kaskade.JsonRoundTrip
import Kaskade.MessageSelection

/-!
# Schema files

`read_json_text`: the text of a file and the JSON document in it.
-/

namespace Kaskade

open Python

/-- A file: how its path is written, its last part, and its octets or why they cannot be read. -/
structure SchemaFile where
  path : Text
  name : Text
  octets : Outcome Bytes

def universalNewlines : Text → Text
  | [] => []
  | c :: rest =>
    if c = chr '\r' then
      if rest.head? = some (chr '\n') then universalNewlines rest
      else chr '\n' :: universalNewlines rest
    else c :: universalNewlines rest

variable {F E : Type} [PyFloat F] (py : Interpreter F E)

/-- `path.read_text(encoding="utf-8")`. -/
def SchemaFile.readText (file : SchemaFile) : Outcome Text := do
  let octets ← file.octets
  let t ← py.decodeUtf8 octets
  pure (universalNewlines t)

def readJsonText (file : SchemaFile) : Outcome (Text × Value F E) := do
  let t ← (file.readText py).tryExcept [.osError, .unicodeDecodeError] fun ex =>
    .error (schemaError (text "Unable to read " ++ file.path ++ text ": " ++ ex.message))
  match Python.loads py.jsonLimits t with
  | .ok v => pure (t, v)
  | .error (.syntaxError message remaining) =>
    .error (schemaError (text "Invalid JSON in " ++ file.path ++ text " at line "
      ++ natText (Interpreter.lineOf t (t.length - remaining)) ++ text ": " ++ text message))
  | .error failure => .error (py.jsonException t failure)

/-- The file of a document as `json.dumps` prints it. -/
def jsonFile (name : Text) (document : Value F E) : SchemaFile where
  path := name
  name := name
  octets := .ok ((utf8Encode (dumps .compact (fun _ => []) document)).getD [])

theorem readText_jsonFile (name : Text) {document : Value F E}
    (hencodes : (utf8Encode (dumps .compact (fun _ => []) document)).isSome)
    (hlines : universalNewlines (dumps .compact (fun _ => []) document) =
      dumps .compact (fun _ => []) document) :
    (jsonFile name document).readText py = .ok (dumps .compact (fun _ => []) document) := by
  obtain ⟨octets, hoctets⟩ := Option.isSome_iff_exists.mp hencodes
  simp only [SchemaFile.readText, jsonFile, hoctets, Option.getD_some, Interpreter.decodeUtf8,
    utf8Decode_utf8Encode false hoctets, bind, Except.bind, pure, Except.pure, hlines]

theorem readJsonText_jsonFile {name : Text} {document : Value F E} (hkeys : document.distinctKeys)
    (hdigits : document.withinDigits py.jsonLimits.digits)
    (hdepth : document.depth ≤ py.jsonLimits.nesting)
    (hshown : document.shown (fun _ => []) = document)
    (hencodes : (utf8Encode (dumps .compact (fun _ => []) document)).isSome)
    (hlines : universalNewlines (dumps .compact (fun _ => []) document) =
      dumps .compact (fun _ => []) document) :
    readJsonText py (jsonFile name document) =
      .ok (dumps .compact (fun _ => []) document, document) := by
  have htext := readText_jsonFile py name hencodes hlines
  have hloads := loads_dumps py.jsonLimits .compact (fun _ => []) hkeys hdigits hdepth
  simp only [readJsonText, htext, Outcome.tryExcept_ok, bind, Except.bind, hloads, hshown, pure,
    Except.pure]

end Kaskade
