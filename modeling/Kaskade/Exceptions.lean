import Kaskade.PythonText
import Mathlib.Data.List.Forall2

/-!
# Exceptions

The exception classes that the modelled code raises, lets through or catches, each with
its base classes, and the `except` clause of a `try`.
-/

namespace Kaskade

open Python

inductive ExceptionClass where
  | exception
  | indexError
  | keyError
  | eofError
  | osError
  | valueError
  | unicodeDecodeError
  | unicodeEncodeError
  | syntaxError
  | jsonDecodeError
  | binasciiError
  | overflowError
  | recursionError
  | runtimeError
  | structError
  | attributeError
  | typeError
  /-- `confluent_kafka.KafkaException`. -/
  | kafkaException
  /-- `confluent_kafka.schema_registry.error.SchemaRegistryError`. -/
  | schemaRegistryError
  /-- `confluent_kafka.serialization.SerializationError`. -/
  | confluentSerializationError
  /-- `httpx.HTTPError`. -/
  | httpError
  /-- `yaml.YAMLError`. -/
  | yamlError
  /-- `google.protobuf.message.DecodeError`. -/
  | decodeError
  /-- `kaskade.deserializers.DeserializationError`. -/
  | deserializationError
  /-- `kaskade.apicurio.ApicurioRegistryError`. -/
  | apicurioRegistryError
  /-- `kaskade.serializers.base.SerializationError`. -/
  | serializationError
  /-- `kaskade.schemas.errors.SchemaError`. -/
  | schemaError
  /-- `kaskade.producer.source.SourceError`. -/
  | sourceError
  /-- `kaskade.consumer_service.PartitionSelectionError`. -/
  | partitionSelectionError
  /-- `textual.widgets.data_table.DuplicateKey`. -/
  | duplicateKey
  /-- `click.ClickException`. -/
  | clickException
  /-- `click.BadParameter`. -/
  | badParameter
  /-- `click.MissingParameter`. -/
  | missingParameter
  deriving DecidableEq

namespace ExceptionClass

def mro : ExceptionClass → List ExceptionClass
  | .exception => [.exception]
  | .unicodeDecodeError => [.unicodeDecodeError, .valueError, .exception]
  | .unicodeEncodeError => [.unicodeEncodeError, .valueError, .exception]
  | .jsonDecodeError => [.jsonDecodeError, .valueError, .exception]
  | .binasciiError => [.binasciiError, .valueError, .exception]
  | .recursionError => [.recursionError, .runtimeError, .exception]
  | .confluentSerializationError => [.confluentSerializationError, .kafkaException, .exception]
  | .apicurioRegistryError => [.apicurioRegistryError, .valueError, .exception]
  | .serializationError => [.serializationError, .valueError, .exception]
  | .schemaError => [.schemaError, .valueError, .exception]
  | .sourceError => [.sourceError, .valueError, .exception]
  | .partitionSelectionError => [.partitionSelectionError, .valueError, .exception]
  | .badParameter => [.badParameter, .clickException, .exception]
  | .missingParameter => [.missingParameter, .badParameter, .clickException, .exception]
  | c => [c, .exception]

end ExceptionClass

structure PyException where
  cls : ExceptionClass
  message : Text
  deriving DecidableEq

namespace PyException

/-- Whether `except classes` catches the exception. -/
def isInstance (e : PyException) (classes : List ExceptionClass) : Bool :=
  classes.any (· ∈ e.cls.mro)

end PyException

abbrev Outcome (α : Type) := Except PyException α

namespace Outcome

variable {α : Type}

/-- `try: ... except classes as ex: handler(ex)`. -/
def tryExcept (call : Outcome α) (classes : List ExceptionClass)
    (handler : PyException → Outcome α) : Outcome α :=
  match call with
  | .ok a => .ok a
  | .error e => if e.isInstance classes then handler e else .error e

@[simp] theorem tryExcept_ok (a : α) (classes : List ExceptionClass)
    (handler : PyException → Outcome α) : tryExcept (.ok a) classes handler = .ok a := rfl

theorem tryExcept_caught {x : PyException} {classes : List ExceptionClass}
    {handler : PyException → Outcome α} (h : x.isInstance classes) :
    tryExcept (.error x) classes handler = handler x := if_pos h

/-- An exception that is raised again as another one returns nothing. -/
theorem tryExcept_reraised {call : Outcome α} {classes : List ExceptionClass}
    {wrap : PyException → PyException} {a : α} :
    tryExcept call classes (fun ex => .error (wrap ex)) = .ok a ↔ call = .ok a := by
  cases call with
  | ok b => rfl
  | error ex =>
    rw [tryExcept]
    split_ifs
    all_goals exact ⟨nofun, nofun⟩

theorem mapM_returns_iff {β : Type} {f : α → Outcome β} {items : List α} :
    (∃ results, items.mapM f = .ok results) ↔ ∀ item ∈ items, ∃ result, f item = .ok result := by
  induction items with
  | nil => exact ⟨fun _ => nofun, fun _ => ⟨[], rfl⟩⟩
  | cons item items ih =>
    rw [List.forall_mem_cons, ← ih, List.mapM_cons]
    cases f item with
    | error e => simp [bind, Except.bind]
    | ok result =>
      cases items.mapM f with
      | error e => simp [bind, Except.bind]
      | ok results => simp [bind, Except.bind, pure, Except.pure]

end Outcome

theorem mapM_eq_ok {ε α β : Type} {f : α → Except ε β} {xs : List α} {ys : List β} :
    xs.mapM f = .ok ys ↔ List.Forall₂ (fun x y => f x = .ok y) xs ys := by
  induction xs generalizing ys with
  | nil => simp [pure, Except.pure, eq_comm]
  | cons x xs ih =>
    rw [List.mapM_cons, List.forall₂_cons_left_iff]
    cases hx : f x with
    | error e => simp [bind, Except.bind]
    | ok y =>
      cases hxs : xs.mapM f with
      | error e =>
        refine iff_of_false nofun ?_
        rintro ⟨_, later, -, hlater, -⟩
        cases hxs.symm.trans (ih.mpr hlater)
      | ok later =>
        have hiff : ∀ {later'}, List.Forall₂ (fun x y => f x = .ok y) xs later' ↔ later = later' :=
          fun {later'} => ih.symm.trans (by rw [hxs, Except.ok.injEq])
        simp [hiff, bind, Except.bind, pure, Except.pure, eq_comm]

end Kaskade
