import Kaskade.PythonValues
import Mathlib.Computability.RegularExpressions

/-!
# JSON Schema keywords

A schema is the predicate its validator decides. Each keyword below is one such predicate
on an instance and holds of every instance of a type it does not apply to.
-/

namespace Kaskade.Python

variable {F E : Type}

/-- A schema decides which instances it accepts. -/
abbrev JsonSchema (F E : Type) := Value F E → Bool

inductive JsonType where
  | null
  | object
  | array
  | string
  | integer
  deriving DecidableEq

namespace JsonSchema

section Numbers

variable [PyFloat F]

def type (t : JsonType) : JsonSchema F E
  | .null => t = .null
  | .int _ => t = .integer
  | .float f => t = .integer && PyFloat.isInteger f
  | .str _ => t = .string
  | .list _ => t = .array
  | .dict _ => t = .object
  | _ => false

@[simp] theorem type_string_str (s : Text) : type (F := F) (E := E) .string (.str s) = true := rfl

@[simp] theorem type_object_dict (kvs : List (Text × Value F E)) :
    type .object (.dict kvs) = true := rfl

def minimum (n : ℤ) : JsonSchema F E
  | .int i => n ≤ i
  | .float f => PyFloat.compareInt f n != some .lt
  | _ => true

def maximum (n : ℤ) : JsonSchema F E
  | .int i => i ≤ n
  | .float f => PyFloat.compareInt f n != some .gt
  | _ => true

end Numbers

/-- `"const"` with a string. -/
def const (s : Text) : JsonSchema F E
  | .str s' => s' = s
  | _ => false

/-- `"enum"` with strings. -/
def enum (choices : List Text) : JsonSchema F E
  | .str s => s ∈ choices
  | _ => false

def minLength (n : ℕ) : JsonSchema F E
  | .str s => n ≤ s.length
  | _ => true

/-- `"pattern"` anchored at both ends. -/
def pattern (p : RegularExpression CodePoint) : JsonSchema F E
  | .str s => p.rmatch s
  | _ => true

def items (schema : JsonSchema F E) : JsonSchema F E
  | .list vs => vs.all schema
  | _ => true

def required (names : List Text) : JsonSchema F E
  | .dict kvs => names.all (fun name => (Value.getItem? kvs name).isSome)
  | _ => true

def properties (schemas : List (Text × JsonSchema F E)) : JsonSchema F E
  | .dict kvs => schemas.all (fun ns => (Value.getItem? kvs ns.1).all ns.2)
  | _ => true

/-- `"additionalProperties": false` beside `"properties"` with the given names. -/
def noAdditionalProperties (names : List Text) : JsonSchema F E
  | .dict kvs => kvs.all (fun kv => kv.1 ∈ names)
  | _ => true

def allOf (schemas : List (JsonSchema F E)) : JsonSchema F E := fun v => schemas.all (· v)

def oneOf (schemas : List (JsonSchema F E)) : JsonSchema F E := fun v => schemas.countP (· v) = 1

def not (schema : JsonSchema F E) : JsonSchema F E := fun v => !schema v

def ifThen (condition consequence : JsonSchema F E) : JsonSchema F E :=
  fun v => !condition v || consequence v

def object [PyFloat F] (names : List Text) (schemas : List (Text × JsonSchema F E)) :
    JsonSchema F E :=
  allOf [type .object, noAdditionalProperties (schemas.map Prod.fst), required names,
    properties schemas]

end JsonSchema

def codePoints (first last : Char) : List CodePoint :=
  (List.range' first.toNat (last.toNat + 1 - first.toNat)).map (Fin.ofNat 0x110000)

def oneOfCodes (codes : List CodePoint) : RegularExpression CodePoint :=
  codes.foldr (fun c p => .char c + p) 0

def exactly (t : Text) : RegularExpression CodePoint := t.foldr (fun c p => .char c * p) 1

section Matching

variable {p q : RegularExpression CodePoint}

theorem mem_oneOfCodes {codes : List CodePoint} {c : CodePoint} (h : c ∈ codes) :
    [c] ∈ (oneOfCodes codes).matches' := by
  induction codes with
  | nil => cases h
  | cons d codes ih =>
    rcases List.mem_cons.mp h with rfl | h
    · exact Or.inl rfl
    · exact Or.inr (ih h)

theorem mem_exactly (t : Text) : t ∈ (exactly t).matches' := by
  induction t with
  | nil => rfl
  | cons c t ih => exact Language.append_mem_mul (Set.mem_singleton [c]) ih

theorem mem_mul {s t : Text} (hs : s ∈ p.matches') (ht : t ∈ q.matches') :
    s ++ t ∈ (p * q).matches' :=
  Language.append_mem_mul hs ht

/-- A text all of whose code points match one pattern matches its repetition. -/
theorem mem_pow_length {t : Text} (h : ∀ c ∈ t, [c] ∈ p.matches') :
    t ∈ (p ^ t.length).matches' := by
  rw [RegularExpression.matches'_pow]
  induction t with
  | nil => exact Language.nil_mem_one
  | cons c t ih =>
    rw [List.length_cons, pow_succ']
    exact Language.append_mem_mul (h c List.mem_cons_self)
      (ih fun d hd => h d (List.mem_cons_of_mem c hd))

theorem flatMap_mem_star {α : Type} {f : α → Text} (h : ∀ a, f a ∈ p.matches') (as : List α) :
    as.flatMap f ∈ p.star.matches' := by
  rw [List.flatMap]
  exact Language.join_mem_kstar fun t ht => by
    obtain ⟨a, -, rfl⟩ := List.mem_map.mp ht
    exact h a

theorem mem_codePoints {first last : Char} {c : CodePoint} (h₁ : first.toNat ≤ c.val)
    (h₂ : c.val ≤ last.toNat) : c ∈ codePoints first last := by
  rw [codePoints, List.mem_map]
  refine ⟨c.val, ?_, ?_⟩
  · rw [List.mem_range'_1]
    omega
  · exact Fin.ext (by rw [Fin.val_ofNat, Nat.mod_eq_of_lt c.isLt])

end Matching

end Kaskade.Python
