import Kaskade.EscapedTexts
import Kaskade.RecordCopy

/-!
# Octets shown and read back

What the consumer shows or copies of octets, in any of the four encodings, is what the
serializer of that encoding turns back into the same octets.
-/

namespace Kaskade

namespace Python

theorem base64Value?_base64Chr {n : ℕ} (h : n < 64) :
    base64Value? (base64Chr n) = some n ∧ base64Chr n ≠ chr '=' ∧
      isSpace (base64Chr n) = false ∧ isAscii (base64Chr n) = true := by
  revert n
  decide +kernel

/-- A digit moves the decoder on within a group of four. -/
theorem a2bBase64From_digit {n : ℕ} (h : n < 64) (quad : Fin 4) (left : ℕ) (t : Text) :
    a2bBase64From ⟨quad, left, 0, false⟩ (base64Chr n :: t) =
      match quad with
      | 0 => a2bBase64From ⟨1, n, 0, false⟩ t
      | 1 => (a2bBase64From ⟨2, n % 16, 0, false⟩ t).map (byte (left * 4 + n / 16) :: ·)
      | 2 => (a2bBase64From ⟨3, n % 4, 0, false⟩ t).map (byte (left * 16 + n / 4) :: ·)
      | 3 => (a2bBase64From ⟨0, 0, 0, false⟩ t).map (byte (left * 64 + n) :: ·) := by
  obtain ⟨hvalue, hpad, -⟩ := base64Value?_base64Chr h
  rw [a2bBase64From, if_neg hpad, hvalue]
  rfl

theorem byte_of_toNat {b : UInt8} {n : ℕ} (h : n = b.toNat) : byte n = b := by
  rw [h, byte, UInt8.ofNat_toNat]

theorem a2bBase64From_b64encode (data : Bytes) :
    a2bBase64From ⟨0, 0, 0, false⟩ (b64encode data) = some data := by
  induction data using b64encode.induct with
  | case1 => rfl
  | case2 a =>
    have ha := a.toNat_lt
    have hbyte : byte (a.toNat / 4 * 4 + a.toNat % 4 * 16 / 16) = a := byte_of_toNat (by omega)
    rw [b64encode, a2bBase64From_digit (by omega)]
    simp only
    rw [a2bBase64From_digit (by omega)]
    simp only [hbyte]
    rfl
  | case3 a b =>
    have ha := a.toNat_lt
    have hb := b.toNat_lt
    have hbyte₁ : byte (a.toNat / 4 * 4 + (a.toNat % 4 * 16 + b.toNat / 16) / 16) = a :=
      byte_of_toNat (by omega)
    have hbyte₂ : byte ((a.toNat % 4 * 16 + b.toNat / 16) % 16 * 16 + b.toNat % 16 * 4 / 4) = b :=
      byte_of_toNat (by omega)
    rw [b64encode, a2bBase64From_digit (by omega)]
    simp only
    rw [a2bBase64From_digit (by omega)]
    simp only
    rw [a2bBase64From_digit (by omega)]
    simp only [hbyte₁, hbyte₂]
    rfl
  | case4 a b c rest ih =>
    have ha := a.toNat_lt
    have hb := b.toNat_lt
    have hc := c.toNat_lt
    have hbyte₁ : byte (a.toNat / 4 * 4 + (a.toNat % 4 * 16 + b.toNat / 16) / 16) = a :=
      byte_of_toNat (by omega)
    have hbyte₂ : byte ((a.toNat % 4 * 16 + b.toNat / 16) % 16 * 16
        + (b.toNat % 16 * 4 + c.toNat / 64) / 4) = b := byte_of_toNat (by omega)
    have hbyte₃ : byte ((b.toNat % 16 * 4 + c.toNat / 64) % 4 * 64 + c.toNat % 64) = c :=
      byte_of_toNat (by omega)
    rw [b64encode, a2bBase64From_digit (by omega)]
    simp only
    rw [a2bBase64From_digit (by omega)]
    simp only
    rw [a2bBase64From_digit (by omega)]
    simp only
    rw [a2bBase64From_digit (by omega)]
    simp only [ih, hbyte₁, hbyte₂, hbyte₃, Option.map_some]

/-- A Base64 text has digits and padding, neither whitespace nor letters outside ASCII. -/
theorem b64encode_plain (data : Bytes) :
    ∀ c ∈ b64encode data, isSpace c = false ∧ isAscii c = true := by
  have hnil : ∀ c ∈ ([] : Text), isSpace c = false ∧ isAscii c = true :=
    List.forall_mem_nil _
  have hdigit : ∀ n < 64, isSpace (base64Chr n) = false ∧ isAscii (base64Chr n) = true :=
    fun n hn => (base64Value?_base64Chr hn).2.2
  have hpad : isSpace (chr '=') = false ∧ isAscii (chr '=') = true := by decide
  induction data using b64encode.induct with
  | case1 => exact hnil
  | case2 a =>
    have ha := a.toNat_lt
    simp only [b64encode, List.forall_mem_cons]
    exact ⟨hdigit _ (by omega), hdigit _ (by omega), hpad, hpad, hnil⟩
  | case3 a b =>
    have ha := a.toNat_lt
    have hb := b.toNat_lt
    simp only [b64encode, List.forall_mem_cons]
    exact ⟨hdigit _ (by omega), hdigit _ (by omega), hdigit _ (by omega), hpad, hnil⟩
  | case4 a b c rest ih =>
    have ha := a.toNat_lt
    have hb := b.toNat_lt
    have hc := c.toNat_lt
    simp only [b64encode, List.forall_mem_cons]
    exact ⟨hdigit _ (by omega), hdigit _ (by omega), hdigit _ (by omega), hdigit _ (by omega), ih⟩

theorem head_b64encode (data : Bytes) : (b64encode data).head? ≠ some (chr '=') := by
  have hdigit : ∀ a : UInt8, base64Chr (a.toNat / 4) ≠ chr '=' := fun a =>
    (base64Value?_base64Chr (by have := a.toNat_lt; omega)).2.1
  cases data using b64encode.fun_cases with
  | case1 => nofun
  | case2 a => simpa [b64encode] using hdigit a
  | case3 a b => simpa [b64encode] using hdigit a
  | case4 a b c rest => simpa [b64encode] using hdigit a

theorem a2bBase64_b64encode (data : Bytes) : a2bBase64 (b64encode data) = some data := by
  rw [a2bBase64, if_neg (head_b64encode data), a2bBase64From_b64encode]

theorem fromHex_hexText (data : Bytes) : fromHex (hexText data) = some data := by
  have hspace : ∀ n < 16, isAsciiSpace (hexDigit n) = false := by decide
  induction data with
  | nil => rfl
  | cons b data ih =>
    have hb := b.toNat_lt
    have hbyte : byte (b.toNat / 16 * 16 + b.toNat % 16) = b := byte_of_toNat (by omega)
    have htext : hexText (b :: data) =
        hexDigit (b.toNat / 16) :: hexDigit (b.toNat % 16) :: hexText data := rfl
    rw [htext, fromHex, hspace _ (by omega)]
    simp only [Bool.false_eq_true, if_false, hexValue?_hexDigit (show b.toNat / 16 < 16 by omega),
      hexValue?_hexDigit (show b.toNat % 16 < 16 by omega), ih, Option.map_some, hbyte]

variable {F E : Type}

/-- `str(value)` of a string and of a list of integers; `other` words everything else. -/
def strText (other : Value F E → Text) : Value F E → Text
  | .str s => s
  | .list items =>
    chr '[' :: ((text ", ").intercalate (items.map fun
      | .int i => intText i
      | v => other v) ++ [chr ']'])
  | v => other v

example : strText (fun _ => []) (.list [.int 92, .int 255] : Value FloatRepr Empty) =
    text "[92, 255]" := by decide

variable [PyFloat F]

theorem startsValue_intText (i : ℤ) : StartsValue (intText i) :=
  startsValue_dump (F := FloatRepr) (E := Empty) .compact (fun _ => []) 0 (.int i)

theorem intercalate_intText (i j : ℤ) (numbers : List ℤ) :
    (text ", ").intercalate ((i :: j :: numbers).map intText) =
      intText i ++ chr ',' :: chr ' ' :: (text ", ").intercalate ((j :: numbers).map intText) := by
  rw [List.map_cons, List.intercalate_cons_of_ne_nil (by simp), List.append_assoc]
  rfl

theorem startsValue_intercalate (i : ℤ) (numbers : List ℤ) :
    StartsValue ((text ", ").intercalate ((i :: numbers).map intText)) := by
  cases numbers with
  | nil =>
    rw [List.map_singleton, List.intercalate_singleton]
    exact startsValue_intText i
  | cons j numbers =>
    rw [intercalate_intText]
    exact (startsValue_intText i).append _

theorem length_le_intercalate (numbers : List ℤ) :
    numbers.length ≤ ((text ", ").intercalate (numbers.map intText)).length := by
  induction numbers with
  | nil => exact Nat.zero_le _
  | cons i numbers ih =>
    cases numbers with
    | nil =>
      obtain ⟨c, t, ht, -⟩ := startsValue_intText i
      rw [List.map_singleton, List.intercalate_singleton, ht]
      simp
    | cons j numbers =>
      rw [intercalate_intText]
      simp only [List.length_append, List.length_cons] at ih ⊢
      omega

omit [PyFloat F] in
/-- The integers of a printed list are scanned back up to the bracket, if each of them is. -/
theorem scanItems_intercalate {term : Text → Scan (Value F E)} {numbers : List ℤ}
    (hne : numbers ≠ [])
    (h : ∀ i ∈ numbers, ∀ t, EndsNumber t → term (intText i ++ t) = .ok (.int i, t))
    {turns : ℕ} (ht : numbers.length ≤ turns) (rest : Text) :
    scanItems term turns ((text ", ").intercalate (numbers.map intText) ++ chr ']' :: rest) =
      .ok (numbers.map .int, rest) := by
  induction numbers generalizing turns with
  | nil => exact absurd rfl hne
  | cons i numbers ih =>
    obtain ⟨n, rfl⟩ : ∃ n, turns = n + 1 := Nat.exists_eq_add_one.mpr (by simp at ht; omega)
    have hi := h i List.mem_cons_self
    cases numbers with
    | nil =>
      rw [List.map_singleton, List.intercalate_singleton, scanItems,
        hi _ (endsNumber_cons (by decide) rest), Scan.andThen_ok, skipSpace_cons (by decide)]
      rfl
    | cons j numbers =>
      have hn : (j :: numbers).length ≤ n := by simpa using ht
      have ih := ih (List.cons_ne_nil j numbers) (fun k hk => h k (List.mem_cons_of_mem i hk)) hn
      have hspace : ∀ t, skipSpace (chr ' ' :: t) = skipSpace t := fun t =>
        List.dropWhile_cons_of_pos (by rfl)
      have hstarts := (startsValue_intercalate j numbers).append (chr ']' :: rest)
      rw [intercalate_intText, List.append_assoc, List.cons_append, List.cons_append, scanItems,
        hi _ (endsNumber_cons (by decide) _), Scan.andThen_ok, skipSpace_cons (by decide)]
      simp only [chr_inj, if_true, hspace, hstarts.skipSpace, ih, Scan.as_ok]
      rfl

theorem loads_strText {lim : JsonLimits} (hnesting : 1 ≤ lim.nesting) {numbers : List ℤ}
    (hdigits : ∀ i ∈ numbers, (natText i.natAbs).length ≤ lim.digits)
    (other : Value F E → Text) :
    loads lim (strText other (.list (numbers.map .int))) =
      .ok (.list (numbers.map .int) : Value F E) := by
  have hterm : ∀ i ∈ numbers, ∀ d t, EndsNumber t →
      scanOnce lim d (intText i ++ t) = .ok ((.int i : Value F E), t) := fun i hi d t ht =>
    scanOnce_dump .compact other lim (v := .int i) rfl
      (by simpa [Value.withinDigits, Value.all] using hdigits i hi) (Nat.zero_le d) 0 t ht
  have htext : strText other (.list (numbers.map .int)) =
      chr '[' :: ((text ", ").intercalate (numbers.map intText) ++ [chr ']']) := by
    rw [strText, List.map_map]
    rfl
  obtain ⟨d, hd⟩ := Nat.exists_eq_add_one.mpr hnesting
  have hscan : scanOnce lim lim.nesting (strText other (.list (numbers.map .int))) =
      .ok ((.list (numbers.map .int) : Value F E), []) := by
    rw [hd, scanOnce, htext, scanValue, if_neg (by decide), if_neg (by decide), if_pos rfl,
      Option.elim_some, scanArray]
    cases numbers with
    | nil => rfl
    | cons i numbers =>
      obtain ⟨c, t, ht, hspace, hclose, -⟩ := startsValue_intercalate i numbers
      have hlength := length_le_intercalate (i :: numbers)
      have hhead : ((text ", ").intercalate ((i :: numbers).map intText) ++ [chr ']']).head? ≠
          some (chr ']') := by
        rw [ht]
        simpa using hclose
      rw [((startsValue_intercalate i numbers).append _).skipSpace, if_neg hhead, scanItems_intercalate (List.cons_ne_nil i numbers)
        (fun j hj => hterm j hj d) (by rw [List.length_append]; omega)]
      rfl
  have hbom : (strText other (.list (numbers.map .int)) : Text).head? ≠ some 0xfeff := by
    rw [htext, List.head?_cons]
    decide
  have hskip : skipSpace (strText other (.list (numbers.map .int))) =
      strText other (.list (numbers.map .int)) := by
    rw [htext]
    exact skipSpace_cons (by decide) _
  rw [loads, if_neg hbom, decodeDocument, hskip, hscan]
  rfl

end Python

open Python

variable {F E : Type}

/-- What the documentation promises of every interpreter: integers of up to 640 digits are
converted, and a list of integers is within the nesting that is read and printed. -/
structure Interpreter.FollowsSpecifications (py : Interpreter F E) : Prop where
  digits : 640 ≤ py.jsonLimits.digits
  nesting : 1 ≤ py.jsonLimits.nesting
  dumpNesting : 1 ≤ py.dumpNesting .readable

theorem base64Serialize_b64encode (data : Bytes) : base64Serialize (b64encode data) = .ok data := by
  have hjoined : (split (b64encode data)).flatten = b64encode data := by
    rw [flatten_split, List.filter_eq_self]
    exact fun c hc => by rw [(b64encode_plain data c hc).1]; rfl
  have hascii : (b64encode data).all isAscii = true :=
    List.all_eq_true.mpr fun c hc => (b64encode_plain data c hc).2
  simp only [base64Serialize, hjoined, hascii, if_true, a2bBase64_b64encode]

theorem hexSerialize_hexText (data : Bytes) : hexSerialize (hexText data) = .ok data := by
  rw [hexSerialize, fromHex_hexText]

theorem escapedSerialize_escapedBytes (data : Bytes) :
    escapedSerialize (escapedBytes data) = .ok data := by
  rw [← EscapeToken.written_map_ofOctet, escapedSerialize_written, EscapeToken.octets_map_ofOctet]

theorem bytesOf_octets (data : Bytes) :
    bytesOf (F := F) (E := E) (.list (data.map fun b => .int b.toNat)) = .ok data := by
  have hoctets : (data.map fun b => (.int b.toNat : Value F E)).mapM octet? = some data := by
    induction data with
    | nil => rfl
    | cons b data ih =>
      have hb := b.toNat_lt
      have hoctet : octet? (.int b.toNat : Value F E) = some b := by
        rw [octet?, if_pos (by omega), Int.toNat_natCast, byte_of_toNat rfl]
      rw [List.map_cons, List.mapM_cons, hoctet, ih]
      rfl
  rw [bytesOf, hoctets]

variable [PyFloat F] {py : Interpreter F E}

/-- A bracketed text that is loaded as the list of the octets is turned back into them. -/
theorem byteArraySerialize_loads {t : Text} {data : Bytes}
    (h : Python.loads py.jsonLimits (chr '[' :: t) =
      .ok (.list (data.map fun b => .int b.toNat) : Value F E)) :
    byteArraySerialize py (chr '[' :: t) = .ok data := by
  have hstrip : strip (chr '[' :: t) ≠ [] := by
    rw [strip, List.dropWhile_cons_of_neg (by decide), ne_eq, List.rdropWhile_eq_nil_iff]
    intro hspace
    exact absurd (hspace _ List.mem_cons_self) (by decide)
  rw [byteArraySerialize, if_neg hstrip, h]
  exact bytesOf_octets data

theorem natText_octet_length (b : UInt8) : (natText (b.toNat : ℤ).natAbs).length ≤ 640 := by
  have hb := b.toNat_lt
  have hlength : (Nat.toDigits 10 b.toNat).length ≤ 3 :=
    (Nat.length_toDigits_le_iff (by decide) (by decide)).mpr (by omega)
  rw [natText, List.length_map, Int.natAbs_natCast]
  omega

theorem byteArraySerialize_strText (h : py.FollowsSpecifications) (data : Bytes)
    (other : Value F E → Text) :
    byteArraySerialize py (strText other (bytesData data .byteArray)) = .ok data := by
  have hnumbers : data.map (fun b => (.int b.toNat : Value F E)) =
      (data.map fun b => (b.toNat : ℤ)).map .int := by
    rw [List.map_map]
    rfl
  have hdigits : ∀ i ∈ data.map (fun b => (b.toNat : ℤ)),
      (natText i.natAbs).length ≤ py.jsonLimits.digits := by
    intro i hi
    obtain ⟨b, -, rfl⟩ := List.mem_map.mp hi
    exact (natText_octet_length b).trans h.digits
  have hloads := loads_strText h.nesting hdigits other
  rw [← hnumbers] at hloads
  exact byteArraySerialize_loads hloads

/-- The list form of octets as Record Details prints it. -/
theorem byteArraySerialize_readableJson (h : py.FollowsSpecifications) (data : Bytes) :
    ∃ copied, readableJson py (bytesData data .byteArray) = .ok copied ∧
      byteArraySerialize py copied = .ok data := by
  have hdepth : (bytesData data .byteArray : Value F E).depth ≤ 1 := by
    rw [bytesData, Value.depth, Nat.add_le_add_iff_right, Value.depthList_le]
    intro v hv
    obtain ⟨b, -, rfl⟩ := List.mem_map.mp hv
    exact Nat.le_refl 0
  have hitems : ∀ p : Value F E → Bool, p (bytesData data .byteArray) →
      (∀ b : UInt8, p (.int b.toNat)) → (bytesData data .byteArray).all p := by
    intro p hp hint
    refine Value.all_list.mpr ⟨hp, fun v hv => ?_⟩
    obtain ⟨b, -, rfl⟩ := List.mem_map.mp hv
    exact hint b
  have hdigits : (bytesData data .byteArray : Value F E).withinDigits py.jsonLimits.digits :=
    hitems _ rfl fun b => decide_eq_true ((natText_octet_length b).trans h.digits)
  have hloads := loads_dumps py.jsonLimits .readable py.str
    (v := bytesData data .byteArray) (hitems _ rfl fun b => rfl) hdigits (hdepth.trans h.nesting)
  rw [Value.shown_eq_self (hitems _ rfl fun b => rfl)] at hloads
  refine ⟨Python.dumps .readable py.str (bytesData data .byteArray), ?_, ?_⟩
  · have hnesting : ¬ py.dumpNesting .readable < (bytesData data .byteArray : Value F E).depth :=
      Nat.not_lt.mpr (hdepth.trans h.dumpNesting)
    simp [readableJson, Interpreter.dumps, hnesting, hdigits]
  · cases data with
    | nil => exact byteArraySerialize_loads hloads
    | cons b data => exact byteArraySerialize_loads hloads

/-- In every encoding, the serializer turns the text that is shown for octets and the text that
is copied for them back into these octets. -/
theorem bytesSerialize_shown (h : py.FollowsSpecifications) (encoding : BytesEncoding)
    (data : Bytes) :
    bytesSerialize py encoding (contentStr (strText py.str) (.bytes data) encoding) = .ok data ∧
      ∃ copied, readableContent py (bytesData data encoding) = .ok copied ∧
        bytesSerialize py encoding copied = .ok data := by
  cases encoding with
  | base64 =>
    exact ⟨base64Serialize_b64encode data, _, rfl, base64Serialize_b64encode data⟩
  | hex => exact ⟨hexSerialize_hexText data, _, rfl, hexSerialize_hexText data⟩
  | byteArray =>
    exact ⟨byteArraySerialize_strText h data py.str, byteArraySerialize_readableJson h data⟩
  | escaped => exact ⟨escapedSerialize_escapedBytes data, _, rfl, escapedSerialize_escapedBytes data⟩

theorem bytesSerialize_shown_plain :
    bytesSerialize .plain .byteArray
      (contentStr (strText Interpreter.plain.str) (.bytes [0x5c, 0xff]) .byteArray) =
        .ok [0x5c, 0xff] :=
  (bytesSerialize_shown ⟨by decide, by decide, by decide⟩ .byteArray [0x5c, 0xff]).1

end Kaskade
