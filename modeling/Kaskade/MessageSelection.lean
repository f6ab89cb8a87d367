import Kaskade.TypeReferences

/-!
# Messages of a Protobuf pool

A pool holds a root file and the files it imports. The consumer looks a message up by its full
name first, and then by its name within the package of the root; the producer writes the latter.
The two agree unless a message of the pool is fully named as another is named within the root.
-/

namespace Kaskade

open Python

def FileDescriptorProto.Declares (file : FileDescriptorProto) (d : Descriptor) : Prop :=
  ∃ path names, path ≠ [] ∧ namesAt file.messageType path = some names ∧ d = file.descriptor names

/-- A pool of files. `FindMessageTypeByName` finds each declared message by its full name and
raises `KeyError` for any other name; a pool refuses a second message of the same name. -/
structure DescriptorPool where
  files : List FileDescriptorProto
  wellFormed : ∀ file ∈ files, WellFormed file.messageType
  findMessageTypeByName : Text → Option Descriptor
  find_eq_some : ∀ name d,
    findMessageTypeByName name = some d ↔ (∃ file ∈ files, file.Declares d) ∧ d.fullName = name

mutual

def DescriptorProto.declared : DescriptorProto → List (List Text)
  | .mk name nestedType => [name] :: (declaredIn nestedType).map (name :: ·)

def declaredIn : List DescriptorProto → List (List Text)
  | [] => []
  | message :: messages => message.declared ++ declaredIn messages

end

def FileDescriptorProto.messages (file : FileDescriptorProto) : List Descriptor :=
  (declaredIn file.messageType).map file.descriptor

theorem mem_declared {message : DescriptorProto} {names : List Text} :
    names ∈ message.declared ↔
      ∃ rest, names = message.name :: rest ∧ (rest = [] ∨ rest ∈ declaredIn message.nestedType) := by
  cases message with
  | mk name nestedType =>
    rw [DescriptorProto.declared, List.mem_cons, List.mem_map, DescriptorProto.name,
      DescriptorProto.nestedType]
    constructor
    · rintro (rfl | ⟨rest, hrest, rfl⟩)
      · exact ⟨[], rfl, .inl rfl⟩
      · exact ⟨rest, rfl, .inr hrest⟩
    · rintro ⟨rest, rfl, rfl | hrest⟩
      · exact .inl rfl
      · exact .inr ⟨rest, hrest, rfl⟩

theorem mem_declaredIn {messages : List DescriptorProto} {names : List Text} :
    names ∈ declaredIn messages ↔ ∃ message ∈ messages, names ∈ message.declared := by
  induction messages with
  | nil => simp [declaredIn]
  | cons message messages ih => simp [declaredIn, ih]

/-- Every path leads to declared names, and to all of them. -/
theorem mem_declaredIn_iff_namesAt {messages : List DescriptorProto} {names : List Text} :
    names ∈ declaredIn messages ↔ ∃ path, path ≠ [] ∧ namesAt messages path = some names := by
  induction names generalizing messages with
  | nil =>
    constructor
    · intro h
      obtain ⟨message, -, hnames⟩ := mem_declaredIn.mp h
      obtain ⟨rest, hrest, -⟩ := mem_declared.mp hnames
      cases hrest
    · rintro ⟨path, hpath, h⟩
      cases path with
      | nil => exact absurd rfl hpath
      | cons index path =>
        rw [namesAt] at h
        split at h
        · cases h
        · obtain ⟨_, -, hcons⟩ := Option.map_eq_some_iff.mp h
          cases hcons
  | cons name rest ih =>
    constructor
    · intro h
      obtain ⟨message, hmessage, hnames⟩ := mem_declaredIn.mp h
      obtain ⟨rest', hcons, hrest⟩ := mem_declared.mp hnames
      cases hcons
      obtain ⟨index, hindex⟩ := List.mem_iff_getElem?.mp hmessage
      rcases hrest with rfl | hrest
      · exact ⟨[index], List.cons_ne_nil index [], by simp [namesAt, hindex]⟩
      · obtain ⟨path, -, hpath⟩ := ih.mp hrest
        exact ⟨index :: path, List.cons_ne_nil index path, by simp [namesAt, hindex, hpath]⟩
    · rintro ⟨path, hpath, h⟩
      cases path with
      | nil => exact absurd rfl hpath
      | cons index path =>
        rw [namesAt] at h
        cases hmessage : messages[index]? with
        | none => simp [hmessage] at h
        | some message =>
          simp only [hmessage, Option.map_eq_some_iff] at h
          obtain ⟨rest', hrest, hcons⟩ := h
          cases hcons
          apply mem_declaredIn.mpr
          refine ⟨message, List.mem_of_getElem? hmessage, mem_declared.mpr ⟨rest, rfl, ?_⟩⟩
          cases path with
          | nil => exact .inl (Option.some.inj hrest).symm
          | cons next path => exact .inr (ih.mpr ⟨next :: path, List.cons_ne_nil next path, hrest⟩)

theorem mem_messages {file : FileDescriptorProto} {d : Descriptor} :
    d ∈ file.messages ↔ file.Declares d := by
  rw [FileDescriptorProto.messages, List.mem_map]
  constructor
  · rintro ⟨names, hnames, rfl⟩
    obtain ⟨path, hpath, hat⟩ := mem_declaredIn_iff_namesAt.mp hnames
    exact ⟨path, names, hpath, hat, rfl⟩
  · rintro ⟨path, names, hpath, hat, rfl⟩
    exact ⟨names, mem_declaredIn_iff_namesAt.mpr ⟨path, hpath, hat⟩, rfl⟩

/-- The pool of files whose messages all have different full names. -/
def DescriptorPool.ofFiles (files : List FileDescriptorProto)
    (wellFormed : ∀ file ∈ files, WellFormed file.messageType)
    (distinct : ((files.flatMap (·.messages)).map (·.fullName)).Nodup) : DescriptorPool where
  files := files
  wellFormed := wellFormed
  findMessageTypeByName name := (files.flatMap (·.messages)).find? (·.fullName = name)
  find_eq_some name d := by
    simp only [← mem_messages, ← List.mem_flatMap]
    constructor
    · intro h
      exact ⟨List.mem_of_find?_eq_some h, by simpa using List.find?_some h⟩
    · rintro ⟨hmem, rfl⟩
      cases hfound : (files.flatMap (·.messages)).find? (·.fullName = d.fullName) with
      | none => simpa using List.find?_eq_none.mp hfound d hmem
      | some other =>
        have hname : other.fullName = d.fullName := by simpa using List.find?_some hfound
        rw [List.inj_on_of_nodup_map distinct (List.mem_of_find?_eq_some hfound) hmem hname]

def schemaError (message : Text) : PyException := ⟨.schemaError, message⟩

def findMessage (pool : DescriptorPool) (root : FileDescriptorProto) (name : Text) :
    Outcome Descriptor :=
  match pool.findMessageTypeByName name with
  | some d => .ok d
  | none =>
    let qualifiedName := dotted ([root.package, name].filter (· ≠ []))
    match pool.findMessageTypeByName qualifiedName with
    | some d => .ok d
    | none => .error (schemaError (text "Protobuf message not found: " ++ name))

def firstMessage (pool : DescriptorPool) (root : FileDescriptorProto) : Outcome Descriptor :=
  match root.messageType with
  | [] => .error (schemaError (text "Protobuf schema contains no messages"))
  | message :: _ => findMessage pool root message.name

/-- The message and the payload that `_deserialize_protobuf` decodes with each other. -/
def selectMessage (pool : DescriptorPool) (root : FileDescriptorProto) (payload : Bytes) :
    Outcome (Descriptor × Bytes) :=
  match parseTypeRef payload with
  | (none, _) => (firstMessage pool root).map fun d => (d, payload)
  | (some name, messagePayload) => (findMessage pool root name).map fun d => (d, messagePayload)

/-- Selection relative to a root picks the messages of the root. -/
structure SelectsOwn (pool : DescriptorPool) (root : FileDescriptorProto) : Prop where
  first : ∀ message ∈ root.messageType.head?,
    firstMessage pool root = .ok (root.descriptor [message.name])
  named : ∀ d, root.Declares d → findMessage pool root (relativeName d) = .ok d
  framed : ∀ d ref payload, root.Declares d → apicurioTypeRef d = .ok ref → ref.length < 2 ^ 63 →
    selectMessage pool root (ref ++ payload) = .ok (d, payload)

@[simp] theorem dotted_singleton (name : Text) : dotted [name] = name := by
  simp [dotted]

theorem relativeName_descriptor {root : FileDescriptorProto} {names : List Text} (h : names ≠ []) :
    relativeName (root.descriptor names) = dotted names := by
  by_cases hpackage : root.package = []
  · simp [relativeName, FileDescriptorProto.descriptor, hpackage]
  · simp only [relativeName, FileDescriptorProto.descriptor, hpackage, if_false]
    rw [dotted_cons h, removeLead, if_pos (List.prefix_append _ _), List.drop_left]

theorem dotted_ne_nil {names : List Text} (hne : names ≠ []) (h : ∀ n ∈ names, n ≠ []) :
    dotted names ≠ [] := by
  cases names with
  | nil => exact absurd rfl hne
  | cons name rest =>
    have hname := h name List.mem_cons_self
    cases rest with
    | nil => simpa using hname
    | cons next rest =>
      rw [dotted_cons (List.cons_ne_nil next rest)]
      simp [hname]

/-- A declared message has a name that is not empty at every level. -/
theorem FileDescriptorProto.Declares.names {file : FileDescriptorProto} {d : Descriptor}
    (hwell : WellFormed file.messageType) (h : file.Declares d) :
    ∃ names, names ≠ [] ∧ dotted names ≠ [] ∧ d = file.descriptor names := by
  obtain ⟨path, names, hpath, hat, rfl⟩ := h
  obtain ⟨hidentifiers, -, hlength⟩ := namesAt_wellFormed hwell hat
  have hnames : names ≠ [] := by
    rintro rfl
    exact hpath (List.length_eq_zero_iff.mp hlength.symm)
  exact ⟨names, hnames, dotted_ne_nil hnames fun n hn => (hidentifiers n hn).1, rfl⟩

/-- The name within the package, qualified by it, is the full name. -/
theorem qualified_relativeName {root : FileDescriptorProto} {d : Descriptor}
    (hwell : WellFormed root.messageType) (hd : root.Declares d) :
    dotted ([root.package, relativeName d].filter (· ≠ [])) = d.fullName := by
  obtain ⟨names, hnames, hdotted, rfl⟩ := hd.names hwell
  rw [relativeName_descriptor hnames]
  by_cases hpackage : root.package = []
  · rw [List.filter_cons_of_neg (by simp [hpackage]), List.filter_cons_of_pos (by simp [hdotted])]
    simp [FileDescriptorProto.descriptor, hpackage]
  · rw [List.filter_cons_of_pos (by simp [hpackage]), List.filter_cons_of_pos (by simp [hdotted])]
    simp [FileDescriptorProto.descriptor, hpackage, dotted_cons, hnames]

/-- Within a package, the name of a message is shorter than its full name. -/
theorem relativeName_ne_fullName {root : FileDescriptorProto} {d : Descriptor}
    (hpackage : root.package ≠ []) (hwell : WellFormed root.messageType) (hd : root.Declares d) :
    relativeName d ≠ d.fullName := by
  obtain ⟨names, hnames, -, rfl⟩ := hd.names hwell
  rw [relativeName_descriptor hnames]
  intro h
  have hlength := congrArg List.length h
  have hpos := List.length_pos_of_ne_nil hpackage
  simp [FileDescriptorProto.descriptor, hpackage, dotted_cons hnames] at hlength
  omega

variable {pool : DescriptorPool} {root : FileDescriptorProto}

theorem findMessage_eq_ok {name : Text} {d : Descriptor}
    (h : pool.findMessageTypeByName name = some d) : findMessage pool root name = .ok d := by
  rw [findMessage, h]

/-- A message of the root is found under its name within the package exactly when no other
message of the pool bears that name in full. -/
theorem findMessage_relativeName (hroot : root ∈ pool.files) {d : Descriptor} (hd : root.Declares d) :
    findMessage pool root (relativeName d) = .ok d ↔
      root.package = [] ∨ pool.findMessageTypeByName (relativeName d) = none := by
  have hwell := pool.wellFormed root hroot
  have hfull : pool.findMessageTypeByName d.fullName = some d :=
    (pool.find_eq_some _ _).mpr ⟨⟨root, hroot, hd⟩, rfl⟩
  by_cases hpackage : root.package = []
  · have hsame : relativeName d = d.fullName := by
      obtain ⟨_, _, _, _, rfl⟩ := hd
      simp [relativeName, FileDescriptorProto.descriptor, hpackage]
    simp [hpackage, hsame, findMessage_eq_ok hfull]
  · simp only [hpackage, false_or]
    constructor
    · intro h
      cases hother : pool.findMessageTypeByName (relativeName d) with
      | none => rfl
      | some other =>
        rw [findMessage_eq_ok hother, Except.ok.injEq] at h
        have hname := ((pool.find_eq_some _ _).mp hother).2
        rw [h] at hname
        exact absurd hname.symm (relativeName_ne_fullName hpackage hwell hd)
    · intro h
      simp only [findMessage, h, qualified_relativeName hwell hd, hfull]

/-- No message of the pool is fully named as a message of the root is named within its package. -/
def RelativeNamesFree (pool : DescriptorPool) (root : FileDescriptorProto) : Prop :=
  ∀ d, root.Declares d → ∀ file ∈ pool.files, ∀ other, file.Declares other →
    other.fullName ≠ relativeName d

theorem relativeNamesFree_iff :
    RelativeNamesFree pool root ↔
      ∀ d, root.Declares d → pool.findMessageTypeByName (relativeName d) = none := by
  simp only [RelativeNamesFree, Option.eq_none_iff_forall_not_mem, Option.mem_def, pool.find_eq_some]
  grind

theorem declares_first {message : DescriptorProto} (h : message ∈ root.messageType.head?) :
    root.Declares (root.descriptor [message.name]) := by
  refine ⟨[0], [message.name], List.cons_ne_nil 0 [], ?_, rfl⟩
  rw [Option.mem_def, List.head?_eq_getElem?] at h
  simp [namesAt, h]

theorem apicurioTypeRef_eq_ok {d : Descriptor} {ref : Bytes} (h : apicurioTypeRef d = .ok ref) :
    ∃ encoded, utf8Encode (relativeName d) = some encoded ∧ ref = typeRef encoded := by
  rw [apicurioTypeRef] at h
  cases hencode : utf8Encode (relativeName d) with
  | none => simp [hencode] at h
  | some encoded =>
    simp only [hencode, Except.ok.injEq] at h
    exact ⟨encoded, rfl, h.symm⟩

/-- A framed payload is decoded with the message found under the relative name. -/
theorem selectMessage_typeRef {d : Descriptor} {ref : Bytes} (href : apicurioTypeRef d = .ok ref)
    (hlength : ref.length < 2 ^ 63) (payload : Bytes) :
    selectMessage pool root (ref ++ payload) =
      (findMessage pool root (relativeName d)).map fun d => (d, payload) := by
  obtain ⟨encoded, hname, rfl⟩ := apicurioTypeRef_eq_ok href
  rw [selectMessage, parseTypeRef_typeRef hname hlength]

/-- Selection by relative names carries over to the first message and to framed payloads. -/
theorem SelectsOwn.of_named
    (h : ∀ d, root.Declares d → findMessage pool root (relativeName d) = .ok d) :
    SelectsOwn pool root := by
  constructor
  · intro message hmessage
    have hfound := h _ (declares_first hmessage)
    rw [relativeName_descriptor (List.cons_ne_nil _ _), dotted_singleton] at hfound
    obtain ⟨rest, hmessages⟩ := List.head?_eq_some_iff.mp hmessage
    rw [firstMessage, hmessages]
    exact hfound
  · exact h
  · intro d ref payload hd href hlength
    rw [selectMessage_typeRef href hlength, h d hd]
    rfl

/-- Selection picks the messages of the root exactly when the root has no package, or none of its
relative names is a full name of the pool. -/
theorem selectsOwn_iff (hroot : root ∈ pool.files) :
    SelectsOwn pool root ↔ root.package = [] ∨ RelativeNamesFree pool root := by
  rw [relativeNamesFree_iff]
  constructor
  · intro h
    by_cases hpackage : root.package = []
    · exact .inl hpackage
    · refine .inr fun d hd => ?_
      exact ((findMessage_relativeName hroot hd).mp (h.named d hd)).resolve_left hpackage
  · intro h
    apply SelectsOwn.of_named
    intro d hd
    apply (findMessage_relativeName hroot hd).mpr
    exact h.imp_right fun hfree => hfree d hd

/-- A file without a package that declares one message. -/
def imported (name : Text) : FileDescriptorProto where
  name := text "imported.proto"
  package := []
  messageType := [.mk name []]

theorem imported_wellFormed {name : Text} (h : name ≠ [] ∧ chr '.' ∉ name) :
    WellFormed (imported name).messageType := by
  have hleaf : WellFormed [] := .intro .nil (by decide) (by simp) (by simp)
  refine .intro (List.nodup_singleton _) ?_ ?_ ?_
  · exact (Nat.one_lt_two_pow (by decide) : 1 < 2 ^ 63)
  · exact fun m hm => List.mem_singleton.mp hm ▸ h
  · exact fun m hm => List.mem_singleton.mp hm ▸ hleaf

/-- The orders and lines of `shop`, with an import. -/
def shopWith (name : Text) (hname : name ≠ [] ∧ chr '.' ∉ name)
    (hdistinct : (([shop, imported name].flatMap (·.messages)).map (·.fullName)).Nodup) :
    DescriptorPool :=
  .ofFiles [shop, imported name]
    (List.forall_mem_cons.mpr
      ⟨shop_wellFormed, List.forall_mem_singleton.mpr (imported_wellFormed hname)⟩) hdistinct

theorem shelf_selectsOwn :
    SelectsOwn (shopWith (text "Shelf") (by decide +kernel) (by decide +kernel)) shop := by
  apply (selectsOwn_iff List.mem_cons_self).mpr
  refine .inr (relativeNamesFree_iff.mpr fun d hd => Option.isNone_iff_eq_none.mp ?_)
  have hnone : ∀ d ∈ shop.messages, ((shopWith (text "Shelf") (by decide +kernel)
      (by decide +kernel)).findMessageTypeByName (relativeName d)).isNone := by
    decide +kernel
  exact hnone d (mem_messages.mpr hd)

/-- An import takes the place of the first message of the root, and of the one a frame names. -/
theorem imported_refund_selected :
    let pool := shopWith (text "Refund") (by decide +kernel) (by decide +kernel)
    let own := shop.descriptor [text "Refund"]
    let other := (imported (text "Refund")).descriptor [text "Refund"]
    shop ∈ pool.files ∧ shop.Declares own ∧ own ≠ other ∧ firstMessage pool shop = .ok other ∧
      (∃ ref, apicurioTypeRef own = .ok ref ∧
        selectMessage pool shop (ref ++ [8, 1]) = .ok (other, [8, 1])) ∧
      ¬ SelectsOwn pool shop := by
  have hfirst : DescriptorProto.mk (text "Refund") [] ∈ shop.messageType.head? := rfl
  have hother : shop.descriptor [text "Refund"] ≠
      (imported (text "Refund")).descriptor [text "Refund"] := by
    intro h
    exact absurd (congrArg Descriptor.filePackage h) (by decide)
  have href : apicurioTypeRef (shop.descriptor [text "Refund"]) =
      .ok (typeRef ((text "Refund").flatMap utf8Char)) := rfl
  refine ⟨List.mem_cons_self, declares_first hfirst, hother, rfl, ⟨_, href, ?_⟩, fun h => hother ?_⟩
  · exact (selectMessage_typeRef href (by decide +kernel) [8, 1]).trans rfl
  · exact Except.ok.inj ((h.first _ hfirst).symm.trans rfl)

end Kaskade
