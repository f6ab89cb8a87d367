import Kaskade.Deserializers
import Kaskade.Serializers
import Kaskade.Varints

/-!
# Protobuf message indexes

A registered Protobuf schema declares several messages, and a Confluent frame names one of
them by its path of indexes through the nested declarations. The producer derives the path
from the name of the message; the consumer derives the name from the path.
-/

namespace Kaskade

open Python

inductive DescriptorProto where
  | mk (name : Text) (nestedType : List DescriptorProto)

namespace DescriptorProto

def name : DescriptorProto → Text
  | .mk name _ => name

def nestedType : DescriptorProto → List DescriptorProto
  | .mk _ nestedType => nestedType

end DescriptorProto

structure FileDescriptorProto where
  name : Text
  package : Text
  messageType : List DescriptorProto

/-- A message of a descriptor pool, with the file that declares it. -/
structure Descriptor where
  fullName : Text
  fileName : Text
  filePackage : Text

/-- `".".join(names)`. -/
def dotted (names : List Text) : Text := (text ".").intercalate names

def namesAt : List DescriptorProto → List ℕ → Option (List Text)
  | _, [] => some []
  | messages, index :: path =>
    match messages[index]? with
    | none => none
    | some message => (namesAt message.nestedType path).map (message.name :: ·)

def FileDescriptorProto.descriptor (root : FileDescriptorProto) (names : List Text) : Descriptor where
  fullName := dotted (if root.package = [] then names else root.package :: names)
  fileName := root.name
  filePackage := root.package

/-- What holds of the declarations of a pool: the names are identifiers, siblings have
different names, and there are no more of them than a list can hold. -/
inductive WellFormed : List DescriptorProto → Prop where
  | intro {messages : List DescriptorProto} :
      (messages.map (·.name)).Nodup → messages.length < 2 ^ 63 →
      (∀ m ∈ messages, m.name ≠ [] ∧ chr '.' ∉ m.name) →
      (∀ m ∈ messages, WellFormed m.nestedType) → WellFormed messages

/-- The loop of `message_indexes`. -/
def indexesOf : List DescriptorProto → List Text → Outcome (List ℕ)
  | _, [] => .ok []
  | messages, name :: names =>
    let index := (messages.map (·.name)).idxOf name
    match messages[index]? with
    | none => .error ⟨.valueError, text "is not in list"⟩
    | some message => (indexesOf message.nestedType names).map (index :: ·)

/-- `text.removeprefix(lead)`. -/
def removeLead (lead t : Text) : Text := if lead <+: t then t.drop lead.length else t

def messageIndexes (root : FileDescriptorProto) (descriptor : Descriptor) : Outcome (List ℕ) :=
  if descriptor.filePackage ≠ root.package ∨ descriptor.fileName ≠ root.name then
    .error (serializationError (text "Protobuf message " ++ descriptor.fullName
      ++ text " isn't declared in the subject's schema"))
  else
    let relative :=
      if root.package = [] then descriptor.fullName
      else removeLead (root.package ++ text ".") descriptor.fullName
    indexesOf root.messageType (relative.splitOn (chr '.'))

/-- `_zigzag` of a number that is not negative. -/
def zigzag (value : ℕ) : ℕ := value <<< 1 ^^^ value >>> 63

def confluentMessageIndexes (root : FileDescriptorProto) (descriptor : Descriptor) :
    Outcome Bytes := do
  let indexes ← messageIndexes root descriptor
  if indexes = [0] then .ok [0]
  else .ok ((indexes.length :: indexes).flatMap fun value => varint (zigzag value))

def maxMessageIndexes : ℤ := 100000

def varintMaxBytes : ℕ := 10

def readLabelledVarint (data : Bytes) (offset : ℕ) (label : Text) : Outcome (ℕ × ℕ) :=
  match readVarint varintMaxBytes data offset with
  | .ok result => .ok result
  | .error .endOfData =>
    .error (deserializationError (text "Unexpected EOF while reading Protobuf " ++ label))
  | .error .tooLong => .error (deserializationError (text "Invalid Protobuf " ++ label))

/-- `(value >> 1) ^ -(value & 1)`. -/
def unzigzag (value : ℕ) : ℤ :=
  if value &&& 1 = 0 then (value >>> 1 : ℕ) else -((value >>> 1 : ℕ) : ℤ) - 1

def readMessageIndex (data : Bytes) (offset : ℕ) : Outcome (ℤ × ℕ) :=
  (readLabelledVarint data offset (text "message index")).map fun result =>
    (unzigzag result.1, result.2)

/-- The loop of `parse_message_indexes`. -/
def readMessageIndexes (data : Bytes) : (size offset : ℕ) → Outcome (List ℤ × ℕ)
  | 0, offset => .ok ([], offset)
  | size + 1, offset =>
    match readMessageIndex data offset with
    | .error e => .error e
    | .ok (index, offset) =>
      (readMessageIndexes data size offset).map fun rest => (index :: rest.1, rest.2)

def parseMessageIndexes (data : Bytes) : Outcome (List ℤ × Bytes) :=
  match readMessageIndex data 0 with
  | .error e => .error e
  | .ok (size, offset) =>
    if size < 0 ∨ maxMessageIndexes < size then
      .error (deserializationError (text "Invalid Protobuf message index array length"))
    else if size = 0 then .ok ([0], data.drop offset)
    else
      match readMessageIndexes data size.toNat offset with
      | .error e => .error e
      | .ok (indexes, offset) =>
        if indexes.any (· < 0) then
          .error (deserializationError (text "Invalid Protobuf message index"))
        else .ok (indexes, data.drop offset)

/-- `messages[index]`; a negative index counts from the end. -/
def listItem (messages : List DescriptorProto) (index : ℤ) : Outcome DescriptorProto :=
  match messages[(if index < 0 then index + messages.length else index).toNat]? with
  | some message =>
    if index < -messages.length then .error ⟨.indexError, text "list index out of range"⟩
    else .ok message
  | none => .error ⟨.indexError, text "list index out of range"⟩

/-- The loop of `message_name`. -/
def namesAlong : List DescriptorProto → List ℤ → Outcome (List Text)
  | _, [] => .ok []
  | messages, index :: indexes =>
    if (messages.length : ℤ) ≤ index then
      .error (deserializationError (text "Protobuf message index is out of range"))
    else
      match listItem messages index with
      | .error e => .error e
      | .ok message => (namesAlong message.nestedType indexes).map (message.name :: ·)

def messageName (descriptor : FileDescriptorProto) (indexes : List ℤ) : Outcome Text :=
  match namesAlong descriptor.messageType indexes with
  | .error e => .error e
  | .ok path =>
    if indexes = [] then .error (deserializationError (text "Protobuf message index is empty"))
    else .ok (dotted ((descriptor.package :: path).filter (· ≠ [])))

theorem dotted_cons {name : Text} {names : List Text} (h : names ≠ []) :
    dotted (name :: names) = name ++ text "." ++ dotted names :=
  List.intercalate_cons_of_ne_nil h

theorem splitOn_dotted {names : List Text} (hne : names ≠ []) (h : ∀ n ∈ names, chr '.' ∉ n) :
    (dotted names).splitOn (chr '.') = names :=
  List.splitOn_intercalate (chr '.') h hne

/-- What a path through well-formed declarations establishes of its names and indexes. -/
theorem namesAt_wellFormed {messages : List DescriptorProto} {path : List ℕ} {names : List Text}
    (hwell : WellFormed messages) (h : namesAt messages path = some names) :
    (∀ n ∈ names, n ≠ [] ∧ chr '.' ∉ n) ∧ (∀ i ∈ path, i < 2 ^ 63) ∧
      names.length = path.length := by
  induction path generalizing messages names with
  | nil =>
    obtain rfl := Option.some.inj h
    simp
  | cons index path ih =>
    obtain ⟨-, hlength, hnames, hnested⟩ := hwell
    rw [namesAt] at h
    cases hmessage : messages[index]? with
    | none => simp [hmessage] at h
    | some message =>
      have hmem := List.mem_of_getElem? hmessage
      have hindex : index < messages.length := (List.getElem?_eq_some_iff.mp hmessage).1
      simp only [hmessage, Option.map_eq_some_iff] at h
      obtain ⟨rest, hrest, rfl⟩ := h
      obtain ⟨hidentifiers, hindexes, hsame⟩ := ih (hnested message hmem) hrest
      exact ⟨List.forall_mem_cons.mpr ⟨hnames message hmem, hidentifiers⟩,
        List.forall_mem_cons.mpr ⟨by omega, hindexes⟩, by simp [hsame]⟩

theorem indexesOf_namesAt {messages : List DescriptorProto} {path : List ℕ} {names : List Text}
    (hwell : WellFormed messages) (h : namesAt messages path = some names) :
    indexesOf messages names = .ok path := by
  induction path generalizing messages names with
  | nil =>
    obtain rfl := Option.some.inj h
    rfl
  | cons index path ih =>
    obtain ⟨hdistinct, -, -, hnested⟩ := hwell
    rw [namesAt] at h
    cases hmessage : messages[index]? with
    | none => simp [hmessage] at h
    | some message =>
      simp only [hmessage, Option.map_eq_some_iff] at h
      obtain ⟨rest, hrest, rfl⟩ := h
      have hposition : (messages.map (·.name)).idxOf message.name = index := by
        have hname : (messages.map (·.name))[index]? = some message.name := by simp [hmessage]
        obtain ⟨hlt, hat⟩ := List.getElem?_eq_some_iff.mp hname
        rw [← hat]
        exact hdistinct.idxOf_getElem index hlt
      simp only [indexesOf, hposition, hmessage]
      rw [ih (hnested message (List.mem_of_getElem? hmessage)) hrest]
      rfl

theorem namesAlong_namesAt {messages : List DescriptorProto} {path : List ℕ} {names : List Text}
    (h : namesAt messages path = some names) :
    namesAlong messages (path.map Int.ofNat) = .ok names := by
  induction path generalizing messages names with
  | nil =>
    obtain rfl := Option.some.inj h
    rfl
  | cons index path ih =>
    rw [namesAt] at h
    cases hmessage : messages[index]? with
    | none => simp [hmessage] at h
    | some message =>
      have hindex : index < messages.length := (List.getElem?_eq_some_iff.mp hmessage).1
      simp only [hmessage, Option.map_eq_some_iff] at h
      obtain ⟨rest, hrest, rfl⟩ := h
      have hin : ¬ (messages.length : ℤ) ≤ (index : ℤ) := by omega
      have hitem : listItem messages (index : ℤ) = .ok message := by
        have hnonneg : ¬ (index : ℤ) < 0 := by omega
        have hlow : ¬ (index : ℤ) < -(messages.length : ℤ) := by omega
        simp [listItem, hnonneg, hlow, hmessage]
      rw [List.map_cons, namesAlong, Int.ofNat_eq_natCast, if_neg hin, hitem]
      simp [ih hrest, Except.map]

theorem messageIndexes_descriptor {root : FileDescriptorProto} {path : List ℕ}
    {names : List Text} (hwell : WellFormed root.messageType) (hpath : path ≠ [])
    (h : namesAt root.messageType path = some names) :
    messageIndexes root (root.descriptor names) = .ok path := by
  obtain ⟨hidentifiers, -, hlength⟩ := namesAt_wellFormed hwell h
  have hnames : names ≠ [] := by
    rintro rfl
    exact hpath (List.length_eq_zero_iff.mp hlength.symm)
  have hsplit := splitOn_dotted hnames fun n hn => (hidentifiers n hn).2
  rw [messageIndexes, if_neg (by simp [FileDescriptorProto.descriptor])]
  by_cases hpackage : root.package = []
  · simp only [FileDescriptorProto.descriptor, hpackage, if_true, hsplit]
    exact indexesOf_namesAt hwell h
  · have hrelative : removeLead (root.package ++ text ".") (dotted (root.package :: names)) =
        dotted names := by
      rw [dotted_cons hnames, removeLead, if_pos (List.prefix_append _ _), List.drop_left]
    simp only [FileDescriptorProto.descriptor, hpackage, if_false, hrelative, hsplit]
    exact indexesOf_namesAt hwell h

theorem messageName_descriptor {root : FileDescriptorProto} {path : List ℕ} {names : List Text}
    (hwell : WellFormed root.messageType) (hpath : path ≠ [])
    (h : namesAt root.messageType path = some names) :
    messageName root (path.map Int.ofNat) = .ok (root.descriptor names).fullName := by
  obtain ⟨hidentifiers, -, -⟩ := namesAt_wellFormed hwell h
  have hkept : names.filter (· ≠ []) = names :=
    List.filter_eq_self.mpr fun n hn => by simpa using (hidentifiers n hn).1
  rw [messageName, namesAlong_namesAt h]
  simp only [List.map_eq_nil_iff, hpath, if_false, FileDescriptorProto.descriptor]
  by_cases hpackage : root.package = []
  · rw [if_pos hpackage, List.filter_cons_of_neg (by simp [hpackage]), hkept]
  · rw [if_neg hpackage, List.filter_cons_of_pos (by simp [hpackage]), hkept]

theorem zigzag_of_lt {value : ℕ} (h : value < 2 ^ 63) : zigzag value = 2 * value := by
  have hsign : value >>> 63 = 0 := by
    rw [Nat.shiftRight_eq_div_pow]
    omega
  rw [zigzag, hsign, Nat.xor_zero, Nat.shiftLeft_eq]
  omega

theorem unzigzag_two_mul (value : ℕ) : unzigzag (2 * value) = value := by
  have heven : 2 * value &&& 1 = 0 := by
    rw [Nat.and_one_is_mod]
    omega
  have hhalf : (2 * value) >>> 1 = value := by
    rw [Nat.shiftRight_eq_div_pow]
    omega
  rw [unzigzag, if_pos heven, hhalf]

def indexBytes (value : ℕ) : Bytes := varint (zigzag value)

theorem readMessageIndex_indexBytes {value : ℕ} (h : value < 2 ^ 63) (before after : Bytes) :
    readMessageIndex (before ++ indexBytes value ++ after) before.length =
      .ok (value, before.length + (indexBytes value).length) := by
  have hread : readVarint varintMaxBytes (before ++ indexBytes value ++ after) before.length =
      .ok (zigzag value, before.length + (indexBytes value).length) := by
    refine readVarint_varint (by decide) ?_ before after
    have hwidth : (2 : ℕ) ^ 64 < 128 ^ varintMaxBytes := by decide
    rw [zigzag_of_lt h]
    omega
  simp only [readMessageIndex, readLabelledVarint, hread, Except.map, Except.ok.injEq,
    Prod.mk.injEq, and_true]
  rw [zigzag_of_lt h, unzigzag_two_mul]

theorem readMessageIndexes_indexBytes {path : List ℕ} (h : ∀ i ∈ path, i < 2 ^ 63)
    (before after : Bytes) :
    readMessageIndexes (before ++ path.flatMap indexBytes ++ after) path.length before.length =
      .ok (path.map Int.ofNat, before.length + (path.flatMap indexBytes).length) := by
  induction path generalizing before with
  | nil => simp [readMessageIndexes]
  | cons index path ih =>
    obtain ⟨hindex, hpath⟩ := List.forall_mem_cons.mp h
    have hfirst := readMessageIndex_indexBytes hindex before (path.flatMap indexBytes ++ after)
    have hrest := ih hpath (before ++ indexBytes index)
    simp only [List.append_assoc, List.length_append] at hfirst hrest
    simp only [List.flatMap_cons, List.append_assoc, List.length_cons, readMessageIndexes, hfirst,
      hrest, Except.map, List.map_cons, List.length_append, Int.ofNat_eq_natCast, Nat.add_assoc]

theorem parseMessageIndexes_indexBytes {path : List ℕ} (hpath : path ≠ [])
    (hlength : path.length ≤ maxMessageIndexes) (h : ∀ i ∈ path, i < 2 ^ 63) (payload : Bytes) :
    parseMessageIndexes ((path.length :: path).flatMap indexBytes ++ payload) =
      .ok (path.map Int.ofNat, payload) := by
  have hpos := List.length_pos_iff.mpr hpath
  have hfits : path.length < 2 ^ 63 := by
    rw [maxMessageIndexes] at hlength
    omega
  have hsize := readMessageIndex_indexBytes hfits [] (path.flatMap indexBytes ++ payload)
  have hindexes := readMessageIndexes_indexBytes h (indexBytes path.length) payload
  simp only [List.nil_append, List.length_nil, Nat.zero_add, List.append_assoc] at hsize hindexes
  have hnonneg : (path.map Int.ofNat).any (· < 0) = false := by simp
  have hrange : ¬ ((path.length : ℤ) < 0 ∨ maxMessageIndexes < (path.length : ℤ)) := by
    omega
  have hsome : ¬ (path.length : ℤ) = 0 := by omega
  have hdrop : (indexBytes path.length ++ (path.flatMap indexBytes ++ payload)).drop
      ((indexBytes path.length).length + (path.flatMap indexBytes).length) = payload := by
    rw [← List.append_assoc, ← List.length_append, List.drop_left]
  rw [List.flatMap_cons, List.append_assoc, parseMessageIndexes, hsize]
  simp only [if_neg hrange, if_neg hsome, Int.toNat_natCast, hindexes, hnonneg, hdrop]
  rfl

theorem confluentMessageIndexes_descriptor {root : FileDescriptorProto} {path : List ℕ}
    {names : List Text} (hwell : WellFormed root.messageType) (hpath : path ≠ [])
    (h : namesAt root.messageType path = some names) :
    confluentMessageIndexes root (root.descriptor names) =
      .ok (if path = [0] then [0] else (path.length :: path).flatMap indexBytes) := by
  rw [confluentMessageIndexes, messageIndexes_descriptor hwell hpath h]
  simp only [bind, Except.bind]
  split_ifs <;> rfl

/-- The consumer recovers the path, the payload and the name of the message that the producer
framed. -/
theorem confluent_indexes_round_trip {root : FileDescriptorProto} {path : List ℕ}
    {names : List Text} (hwell : WellFormed root.messageType) (hpath : path ≠ [])
    (hdepth : path.length ≤ maxMessageIndexes) (h : namesAt root.messageType path = some names)
    (payload : Bytes) :
    ∃ indexes, confluentMessageIndexes root (root.descriptor names) = .ok indexes ∧
      parseMessageIndexes (indexes ++ payload) = .ok (path.map Int.ofNat, payload) ∧
      messageName root (path.map Int.ofNat) = .ok (root.descriptor names).fullName := by
  refine ⟨_, confluentMessageIndexes_descriptor hwell hpath h, ?_,
    messageName_descriptor hwell hpath h⟩
  split_ifs with hfirst
  · subst hfirst
    rfl
  · exact parseMessageIndexes_indexBytes hpath hdepth (namesAt_wellFormed hwell h).2.1 payload

def shop : FileDescriptorProto where
  name := text "shop.proto"
  package := text "shop"
  messageType := [.mk (text "Refund") [], .mk (text "Order") [.mk (text "Line") []]]

theorem shop_wellFormed : WellFormed shop.messageType := by
  have hleaf : WellFormed [] := .intro .nil (by decide) (by simp) (by simp)
  refine .intro (by decide) (by decide) (by decide) ?_
  intro m hm
  rcases List.mem_pair.mp hm with rfl | rfl
  · exact hleaf
  · refine .intro (by decide) (by decide) (by decide) ?_
    intro n hn
    obtain rfl := List.mem_singleton.mp hn
    exact hleaf

/-- The second message's first nested one, before a payload of two octets. -/
theorem line_round_trip :
    ∃ indexes, confluentMessageIndexes shop ⟨text "shop.Order.Line", text "shop.proto", text "shop"⟩ =
        .ok indexes ∧
      parseMessageIndexes (indexes ++ [8, 1]) = .ok ([1, 0], [8, 1]) ∧
      messageName shop [1, 0] = .ok (text "shop.Order.Line") :=
  confluent_indexes_round_trip shop_wellFormed (List.cons_ne_nil 1 [0]) (by decide)
    (rfl : namesAt shop.messageType [1, 0] = some [text "Order", text "Line"]) [8, 1]

end Kaskade
