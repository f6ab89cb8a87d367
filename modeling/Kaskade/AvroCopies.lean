import Kaskade.AvroRoundTrip
import Kaskade.RecordCopy

/-!
# Copies of Avro data

The data that the reader of `fastavro` yields under a schema, and when the JSON that the
consumer shows for them is read back. A union is read back where every branch before the one
of the datum declines the text that the datum is shown as.
-/

namespace Kaskade.Avro

open Python Repeated

variable {F O : Type}

section Data

variable {py : Interpreter F O} {readers : TextReaders O} {types : List (Text × Schema)}

theorem Restored.turn {schema next : Schema} {x : Value F O}
    (hstep : Turns (resolveStep types) schema next) (h : Restored py readers types next x) :
    Restored py readers types schema x := by
  cases h with
  | scalar hends hlook hkeeps => exact .scalar (hends.of_turn hstep) hlook hkeeps
  | record hends hfields hothers => exact .record (hends.of_turn hstep) hfields hothers
  | array hends hvalues => exact .array (hends.of_turn hstep) hvalues
  | map hends hitems => exact .map (hends.of_turn hstep) hitems
  | branch hends hpasses hdeclines haccepts hbranch =>
    exact .branch (hends.of_turn hstep) hpasses hdeclines haccepts hbranch
  | noBranch hends hpasses hdeclines hjson =>
    exact .noBranch (hends.of_turn hstep) hpasses hdeclines hjson

variable {allowed : List Schema → Value F O → Prop}

end Data

section

variable [PyFloat F] {py : Interpreter F O} {readers : TextReaders O}

end

def event : Value FloatRepr Unit :=
  .dict [(text "at", .other ()), (text "body", .bytes [0, 255])]

def octet : Value FloatRepr Unit := .bytes [1]

end Kaskade.Avro
