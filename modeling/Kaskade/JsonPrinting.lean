import Kaskade.PythonValues

/-!
# JSON text of a value

`json.dumps` with `ensure_ascii=False`, in the two layouts the program uses, and with a
`default` that turns what JSON lacks into a string. Integers print in full: those the
program prints were read under the interpreter's digit limit.
-/

namespace Kaskade.Python

/-- How `json.dumps` separates and indents. Items are always separated by a bare comma. -/
structure Layout where
  indent : Option ℕ
  /-- Whether a space follows the colon of a dictionary item. -/
  spaced : Bool

namespace Layout

/-- `indent=2`. -/
def readable : Layout := ⟨some 2, true⟩

/-- `separators=(",", ":")`. -/
def compact : Layout := ⟨none, false⟩

def keySeparator (L : Layout) : Text := if L.spaced then text ": " else text ":"

/-- The line break before an item at a nesting level. -/
def newline (L : Layout) (level : ℕ) : Text :=
  match L.indent with
  | none => []
  | some width => chr '\n' :: List.replicate (width * level) (chr ' ')

end Layout

/-- The escape of a code point inside a JSON string. -/
def escapeChar (c : CodePoint) : Text :=
  if c = chr '"' then text "\\\""
  else if c = chr '\\' then text "\\\\"
  else if c = chr '\n' then text "\\n"
  else if c = chr '\r' then text "\\r"
  else if c = chr '\t' then text "\\t"
  else if c.val = 0x0c then text "\\f"
  else if c.val = 0x08 then text "\\b"
  else if c.val < 0x20 then text "\\u00" ++ [hexDigit (c.val / 16), hexDigit (c.val % 16)]
  else [c]

def quoted (s : Text) : Text := chr '"' :: (s.flatMap escapeChar ++ [chr '"'])

def digitChr (d : Fin 10) : CodePoint := ⟨0x30 + d.val, by omega⟩

/-- The exponent of a float, with a sign and at least two digits. -/
def exponentText (e : ℤ) : Text :=
  chr 'e' :: (if e < 0 then chr '-' else chr '+') ::
    ((if e.natAbs < 10 then [chr '0'] else []) ++ natText e.natAbs)

namespace FloatLiteral

def fractionText (l : FloatLiteral) : Text :=
  if l.fraction = [] then [] else chr '.' :: l.fraction.map digitChr

def text (l : FloatLiteral) : Text :=
  (if l.negative then [chr '-'] else []) ++ natText l.whole ++ l.fractionText
    ++ (l.exponent.map exponentText).getD []

end FloatLiteral

/-- A float as `json.dumps` writes it. -/
def FloatRepr.text : FloatRepr → Text
  | .nan => Python.text "NaN"
  | .infinity false => Python.text "Infinity"
  | .infinity true => Python.text "-Infinity"
  | .literal l => l.text

variable {F E : Type}

namespace Value

mutual

/-- The JSON value a dumped value reads as: what JSON lacks has become a string. -/
def shown (default : Value F E → Text) : Value F E → Value F E
  | .bytes data => .str (default (.bytes data))
  | .other e => .str (default (.other e))
  | .list items => .list (shownList default items)
  | .dict items => .dict (shownItems default items)
  | v => v

def shownList (default : Value F E → Text) : List (Value F E) → List (Value F E)
  | [] => []
  | v :: vs => shown default v :: shownList default vs

def shownItems (default : Value F E → Text) :
    List (Text × Value F E) → List (Text × Value F E)
  | [] => []
  | (k, v) :: kvs => (k, shown default v) :: shownItems default kvs

end

@[simp] theorem shownList_eq (default : Value F E → Text) (items : List (Value F E)) :
    shownList default items = items.map (shown default) := by
  induction items with
  | nil => rfl
  | cons v vs ih => rw [shownList, ih, List.map_cons]

@[simp] theorem shownItems_eq (default : Value F E → Text) (items : List (Text × Value F E)) :
    shownItems default items = items.map (fun kv => (kv.1, shown default kv.2)) := by
  induction items with
  | nil => rfl
  | cons kv kvs ih => rw [shownItems, ih, List.map_cons]

/-- Without octets and other objects, nothing is shown as a string. -/
theorem shown_eq_self {default : Value F E → Text} {v : Value F E} (h : v.isJson) :
    v.shown default = v := by
  induction v with
  | list items ih =>
    rw [shown, shownList_eq]
    congr 1
    exact (List.map_congr_left (fun v hv => ih v hv ((all_list.mp h).2 v hv))).trans (List.map_id _)
  | dict items ih =>
    rw [shown, shownItems_eq]
    congr 1
    refine (List.map_congr_left (fun kv hkv => ?_)).trans (List.map_id _)
    rw [ih kv hkv ((all_dict.mp h).2 kv hkv)]
    rfl
  | bytes data => cases h
  | other e => cases h
  | _ => rfl

theorem isJson_shown (default : Value F E → Text) (v : Value F E) : (v.shown default).isJson := by
  induction v with
  | list items ih =>
    rw [shown, shownList_eq]
    refine all_list.mpr ⟨rfl, fun w hw => ?_⟩
    obtain ⟨v, hv, rfl⟩ := List.mem_map.mp hw
    exact ih v hv
  | dict items ih =>
    rw [shown, shownItems_eq]
    refine all_dict.mpr ⟨rfl, fun kv hkv => ?_⟩
    obtain ⟨item, hitem, rfl⟩ := List.mem_map.mp hkv
    exact ih item hitem
  | _ => rfl

theorem shown_eq_self_iff {default : Value F E → Text} {v : Value F E} :
    v.shown default = v ↔ v.isJson :=
  ⟨fun h => h ▸ isJson_shown default v, shown_eq_self⟩

end Value

variable [PyFloat F]

mutual

/-- `json.dumps` of a value at a nesting level; `default` names what JSON lacks. -/
def dump (L : Layout) (default : Value F E → Text) (level : ℕ) : Value F E → Text
  | .null => text "null"
  | .bool true => text "true"
  | .bool false => text "false"
  | .int i => intText i
  | .float f => (PyFloat.repr f).text
  | .str s => quoted s
  | .bytes data => quoted (default (.bytes data))
  | .list items =>
    if items.isEmpty then text "[]"
    else chr '[' :: (dumpList L default (level + 1) items ++ L.newline level ++ [chr ']'])
  | .dict items =>
    if items.isEmpty then text "\x7b\x7d"
    else chr '{' :: (dumpItems L default (level + 1) items ++ L.newline level ++ [chr '}'])
  | .other e => quoted (default (.other e))

def dumpList (L : Layout) (default : Value F E → Text) (level : ℕ) : List (Value F E) → Text
  | [] => []
  | v :: vs =>
    L.newline level ++ dump L default level v ++ (if vs.isEmpty then [] else [chr ','])
      ++ dumpList L default level vs

def dumpItems (L : Layout) (default : Value F E → Text) (level : ℕ) :
    List (Text × Value F E) → Text
  | [] => []
  | (k, v) :: kvs =>
    L.newline level ++ quoted k ++ L.keySeparator ++ dump L default level v
      ++ (if kvs.isEmpty then [] else [chr ',']) ++ dumpItems L default level kvs

end

/-- `json.dumps(v, ensure_ascii=False, ...)`. -/
def dumps (L : Layout) (default : Value F E → Text) (v : Value F E) : Text := dump L default 0 v

end Kaskade.Python
