import Kaskade.IntegerTexts
import Kaskade.PropertyOptions
import Kaskade.RegistrySerializers

/-!
# Schema selections

Which schema a Registry field uses: the properties that choose it are separated from those of the client,
and `SchemaSelection.from_config` reads them for one field, whose scoped properties override global ones.
-/

namespace Kaskade

open Python

def apicurioOption : Text := text "apicurio"

def confluentOption : Text := text "confluent"

def autoRegisterSchemas : Text := text "auto.register.schemas"

def useLatestVersion : Text := text "use.latest.version"

def useSchemaId : Text := text "use.schema.id"

def normalizeSchemas : Text := text "normalize.schemas"

def protobufMessageProperty : Text := text "protobuf.message"

def apicurioAutoRegister : Text := text "apicurio.registry.auto-register"

def apicurioFindLatest : Text := text "apicurio.registry.find-latest"

def apicurioArtifactGroupId : Text := text "apicurio.registry.artifact.group-id"

def apicurioArtifactId : Text := text "apicurio.registry.artifact.artifact-id"

def apicurioArtifactVersion : Text := text "apicurio.registry.artifact.version"

def confluentSelectionProperties : List Text :=
  [autoRegisterSchemas, normalizeSchemas, useLatestVersion, useSchemaId, protobufMessageProperty]

def apicurioSelectionProperties : List Text :=
  [apicurioAutoRegister, apicurioFindLatest, apicurioArtifactGroupId, apicurioArtifactId,
    apicurioArtifactVersion, protobufMessageProperty]

def selectionProperties (provider : Text) : Option (List Text) :=
  if provider = confluentOption then some confluentSelectionProperties
  else if provider = apicurioOption then some apicurioSelectionProperties
  else none

def selectionProperty (name : Text) : Option Text :=
  [[], text "key.", text "value."].findSome? fun start =>
    let base := name.drop start.length
    if start.isPrefixOf name &&
        (confluentSelectionProperties ++ apicurioSelectionProperties).contains base then
      some base
    else none

def splitRegistryConfig (config : Properties) : Properties × Properties :=
  (config.filter fun entry => (selectionProperty entry.1).isNone,
    config.filter fun entry => (selectionProperty entry.1).isSome)

def booleanProperty (name : Text) : Option Text → Outcome (Option Bool)
  | none => .ok none
  | some value =>
    let lowered := value.map lowerChr
    if lowered = text "true" ∨ lowered = text "false" then .ok (some (lowered = text "true"))
    else .error ⟨.valueError, name ++ text " must be true or false"⟩

/-- `_refuse_with_registration`, of a value that is neither missing nor false. -/
def refuseWithRegistration (registration name : Text) (given : Bool) : Outcome Unit :=
  if given then
    .error ⟨.valueError, registration ++ text "=true can't be combined with " ++ name⟩
  else .ok ()

def schemaIdProperty {D : Type} (python : Conversions D) : Option Text → Outcome (Option ℤ)
  | none => .ok none
  | some value => do
    let schemaId ← Outcome.tryExcept (python.int value) [.valueError] fun _ => .ok 0
    if schemaId ≤ 0 then .error ⟨.valueError, useSchemaId ++ text " must be a positive integer"⟩
    else return some schemaId

namespace FieldSelection

def ofConfluent {D : Type} (python : Conversions D) (value : Text → Option Text) :
    Outcome FieldSelection := do
  let autoRegister := (← booleanProperty autoRegisterSchemas (value autoRegisterSchemas)).getD false
  let useLatest ← booleanProperty useLatestVersion (value useLatestVersion)
  let schemaId ← schemaIdProperty python (value useSchemaId)
  if autoRegister then
    refuseWithRegistration autoRegisterSchemas useLatestVersion (useLatest = some true)
    refuseWithRegistration autoRegisterSchemas useSchemaId schemaId.isSome
  else if useLatest = some false then
    throw ⟨.valueError, useLatestVersion ++ text "=false needs " ++ autoRegisterSchemas
      ++ text "=true and a schema file; otherwise Kaskade uses the latest version or " ++ useSchemaId⟩
  let normalize := (← booleanProperty normalizeSchemas (value normalizeSchemas)).getD false
  return {
    schemaId := schemaId
    protobufMessage := value protobufMessageProperty
    autoRegister := autoRegister
    normalize := normalize }

def ofApicurio (value : Text → Option Text) : Outcome FieldSelection := do
  let autoRegister := (← booleanProperty apicurioAutoRegister (value apicurioAutoRegister)).getD false
  let findLatest ← booleanProperty apicurioFindLatest (value apicurioFindLatest)
  let version := value apicurioArtifactVersion
  [apicurioArtifactGroupId, apicurioArtifactId, apicurioArtifactVersion].forM fun name =>
    if value name = some [] then .error ⟨.valueError, name ++ text " must not be empty"⟩ else .ok ()
  if autoRegister then
    refuseWithRegistration apicurioAutoRegister apicurioFindLatest (findLatest = some true)
    refuseWithRegistration apicurioAutoRegister apicurioArtifactVersion version.isSome
  else if findLatest = some false ∧ version.getD [] = [] then
    throw ⟨.valueError, apicurioFindLatest ++ text "=false needs " ++ apicurioArtifactVersion
      ++ text ", or " ++ apicurioAutoRegister ++ text "=true and a schema file"⟩
  return {
    group := ApicurioSchemaResolver.orElse (value apicurioArtifactGroupId) (text "default")
    artifact := value apicurioArtifactId
    version := version
    protobufMessage := value protobufMessageProperty
    autoRegister := autoRegister }

def checkProvider (provider name : Text) : Outcome Unit :=
  match selectionProperty name with
  | none => .ok ()
  | some base =>
    match selectionProperties provider with
    | none => .error ⟨.keyError, provider⟩
    | some names =>
      if names.contains base then .ok ()
      else
        let other := if provider = confluentOption then apicurioOption else confluentOption
        .error ⟨.valueError, name ++ text " requires provider=" ++ other⟩

/-- The inner function of `from_config`. -/
def scopedValue (selection : Properties) (field : MessageField) (name : Text) : Option Text :=
  (selection.lookup (field.lowerName ++ text "." ++ name)).or (selection.lookup name)

def fromConfig {D : Type} (python : Conversions D) (selection : Properties) (provider : Text)
    (field : MessageField) : Outcome FieldSelection := do
  selection.forM fun entry => checkProvider provider entry.1
  if provider = confluentOption then ofConfluent python (scopedValue selection field)
  else ofApicurio (scopedValue selection field)

/-- Without selection properties the latest version is used. -/
theorem fromConfig_nil {D : Type} (python : Conversions D) (provider : Text) (field : MessageField) :
    fromConfig python [] provider field = .ok {} := by
  rw [fromConfig]
  split_ifs <;> rfl

end FieldSelection

section Splitting

variable {config normalized : Properties}

theorem selectionProperty_of_mem_client {name : Text}
    (h : name ∈ (splitRegistryConfig config).1.map Prod.fst) : selectionProperty name = none := by
  obtain ⟨entry, hentry, rfl⟩ := List.mem_map.mp h
  exact Option.isNone_iff_eq_none.mp (List.mem_filter.mp hentry).2

/-- Properties of the client under other values are still properties of the client. -/
theorem splitRegistryConfig_client
    (hkeys : normalized.map Prod.fst = (splitRegistryConfig config).1.map Prod.fst) :
    splitRegistryConfig normalized = (normalized, []) := by
  have hnone : ∀ entry ∈ normalized, selectionProperty entry.1 = none := fun entry hentry =>
    selectionProperty_of_mem_client (hkeys ▸ List.mem_map_of_mem hentry)
  rw [splitRegistryConfig, Prod.mk.injEq, List.filter_eq_self, List.filter_eq_nil_iff]
  constructor
  · intro entry hentry
    rw [hnone entry hentry]
    rfl
  · intro entry hentry
    rw [hnone entry hentry]
    decide

theorem splitRegistryConfig_selection (config : Properties) :
    splitRegistryConfig (splitRegistryConfig config).2 = ([], (splitRegistryConfig config).2) := by
  have hsome : ∀ entry ∈ (splitRegistryConfig config).2, (selectionProperty entry.1).isSome :=
    fun entry hentry => (List.mem_filter.mp hentry).2
  rw [splitRegistryConfig, Prod.mk.injEq, List.filter_eq_nil_iff, List.filter_eq_self]
  constructor
  · intro entry hentry
    rw [← Option.not_isSome, hsome entry hentry]
    decide
  · exact hsome

theorem splitRegistryConfig_union (hdistinct : (config.map Prod.fst).Nodup)
    (hkeys : normalized.map Prod.fst = (splitRegistryConfig config).1.map Prod.fst) :
    splitRegistryConfig (Dictionary.union normalized (splitRegistryConfig config).2) =
      (normalized, (splitRegistryConfig config).2) := by
  have hnodup : ((normalized ++ (splitRegistryConfig config).2).map Prod.fst).Nodup := by
    rw [List.map_append, hkeys, List.nodup_append]
    refine ⟨hdistinct.sublist (List.filter_sublist.map _),
      hdistinct.sublist (List.filter_sublist.map _), ?_⟩
    rintro name hclient other hselection rfl
    obtain ⟨entry, hentry, hname⟩ := List.mem_map.mp hselection
    have hsome := (List.mem_filter.mp hentry).2
    rw [hname, selectionProperty_of_mem_client hclient] at hsome
    cases hsome
  have hclient := Prod.ext_iff.mp (splitRegistryConfig_client hkeys)
  have hselection := Prod.ext_iff.mp (splitRegistryConfig_selection config)
  rw [Dictionary.union_eq_append hnodup]
  apply Prod.ext
  · exact (List.filter_append ..).trans
      ((congrArg₂ _ hclient.1 hselection.1).trans (List.append_nil _))
  · exact (List.filter_append ..).trans (congrArg₂ _ hclient.2 hselection.2)

end Splitting

end Kaskade
