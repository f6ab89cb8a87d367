import Kaskade.Interpreter

/-!
# Percent-encoding

`urllib.parse.quote` with no further safe characters, and the decoding of what it gives. A text that
is encoded has no character that means something in a path, and separated texts are found again.
-/

namespace Kaskade.Python

def upperHexDigit (n : ℕ) : CodePoint := chr (Nat.digitChar n).toUpper

/-- The unreserved characters: letters, digits, and `_.-~`. -/
def isUnreserved (c : CodePoint) : Bool :=
  (0x41 ≤ c.val && c.val ≤ 0x5a) || (0x61 ≤ c.val && c.val ≤ 0x7a) ||
    (0x30 ≤ c.val && c.val ≤ 0x39) || (text "_.-~").contains c

theorem octet_isCodePoint (b : UInt8) : b.toNat < 0x110000 := by
  have hlt := b.toNat_lt
  omega

def octetChr (b : UInt8) : CodePoint := ⟨b.toNat, octet_isCodePoint b⟩

def quoteByte (b : UInt8) : Text :=
  if isUnreserved (octetChr b) then [octetChr b]
  else [chr '%', upperHexDigit (b.toNat / 16), upperHexDigit (b.toNat % 16)]

def quoteFromBytes (data : Bytes) : Text := data.flatMap quoteByte

/-- `quote(t, safe="")`. -/
def quote {F E : Type} (py : Interpreter F E) (t : Text) : Outcome Text :=
  quoteFromBytes <$> py.encodeUtf8 t

def percentDecode : Text → Option Bytes
  | [] => some []
  | c :: t =>
    if c = chr '%' then
      match t with
      | high :: low :: rest =>
        match hexValue? high, hexValue? low with
        | some h, some l => (percentDecode rest).map (byte (h * 16 + l) :: ·)
        | _, _ => none
      | _ => none
    else if c.val < 0x80 then (percentDecode t).map (byte c.val :: ·)
    else none

def pathSegments (path : Text) : Option (List Text) :=
  (path.splitOn (chr '/')).mapM fun segment => percentDecode segment >>= utf8Decode false

theorem hexValue?_upperHexDigit {n : ℕ} (h : n < 16) : hexValue? (upperHexDigit n) = some n := by
  revert n
  decide

theorem isUnreserved_upperHexDigit {n : ℕ} (h : n < 16) : isUnreserved (upperHexDigit n) = true := by
  revert n
  decide

theorem unreserved_lt {c : CodePoint} (h : isUnreserved c = true) : c.val < 0x80 := by
  have hmarks : (text "_.-~").all (fun mark => mark.val < 0x80) = true := by decide
  rw [isUnreserved, Bool.or_eq_true, List.contains_iff_mem] at h
  rcases h with h | h
  · simp only [Bool.or_eq_true, Bool.and_eq_true, decide_eq_true_eq] at h
    omega
  · simpa using List.all_eq_true.mp hmarks c h

theorem isUnreserved_percent : isUnreserved (chr '%') = false := by decide

theorem isUnreserved_slash : isUnreserved (chr '/') = false := by decide

theorem percentDecode_plain {c : CodePoint} (h : isUnreserved c = true) (t : Text) :
    percentDecode (c :: t) = (percentDecode t).map (byte c.val :: ·) := by
  have hne : c ≠ chr '%' := by
    rintro rfl
    rw [isUnreserved_percent] at h
    cases h
  rw [percentDecode.eq_def]
  dsimp only
  rw [if_neg hne, if_pos (unreserved_lt h)]

theorem percentDecode_quoteByte (b : UInt8) (t : Text) :
    percentDecode (quoteByte b ++ t) = (percentDecode t).map (b :: ·) := by
  rw [quoteByte]
  split_ifs with hplain
  · have hbyte : byte (octetChr b).val = b := UInt8.ofNat_toNat
    rw [List.singleton_append, percentDecode_plain hplain, hbyte]
  · have hlt := b.toNat_lt
    have hhigh := hexValue?_upperHexDigit (show b.toNat / 16 < 16 by omega)
    have hlow := hexValue?_upperHexDigit (show b.toNat % 16 < 16 by omega)
    have hbyte : byte (b.toNat / 16 * 16 + b.toNat % 16) = b := by
      rw [Nat.div_add_mod']
      exact UInt8.ofNat_toNat
    simp only [List.cons_append, List.nil_append, percentDecode, hhigh, hlow, hbyte, if_true]

theorem mem_quoteByte {b : UInt8} {c : CodePoint} (h : c ∈ quoteByte b) :
    isUnreserved c = true ∨ c = chr '%' := by
  rw [quoteByte] at h
  split_ifs at h with hplain
  · rw [List.mem_singleton.mp h]
    exact .inl hplain
  · have hlt := b.toNat_lt
    simp only [List.mem_cons, List.not_mem_nil, or_false] at h
    rcases h with rfl | rfl | rfl
    · exact .inr rfl
    · exact .inl (isUnreserved_upperHexDigit (by omega))
    · exact .inl (isUnreserved_upperHexDigit (by omega))

theorem percentDecode_quoteFromBytes (data : Bytes) :
    percentDecode (quoteFromBytes data) = some data := by
  induction data with
  | nil => rfl
  | cons b data ih =>
    rw [quoteFromBytes, List.flatMap_cons, percentDecode_quoteByte, ← quoteFromBytes, ih,
      Option.map_some]

theorem mem_quoteFromBytes {data : Bytes} {c : CodePoint} (h : c ∈ quoteFromBytes data) :
    isUnreserved c = true ∨ c = chr '%' := by
  obtain ⟨b, -, hb⟩ := List.mem_flatMap.mp h
  exact mem_quoteByte hb

variable {F E : Type} {py : Interpreter F E} {t quoted : Text}

theorem quote_decodes (h : quote py t = .ok quoted) :
    (percentDecode quoted >>= utf8Decode false) = some t := by
  rw [quote, Interpreter.encodeUtf8] at h
  cases hdata : utf8Encode t with
  | none =>
    rw [hdata] at h
    cases h
  | some data =>
    rw [hdata] at h
    obtain rfl := Except.ok.inj h
    rw [percentDecode_quoteFromBytes]
    exact utf8Decode_utf8Encode false hdata

theorem mem_quote (h : quote py t = .ok quoted) {c : CodePoint} (hc : c ∈ quoted) :
    isUnreserved c = true ∨ c = chr '%' := by
  rw [quote] at h
  cases hdata : py.encodeUtf8 t with
  | error e =>
    rw [hdata] at h
    cases h
  | ok data =>
    rw [hdata] at h
    obtain rfl := Except.ok.inj h
    exact mem_quoteFromBytes hc

/-- A text of unreserved characters stands for itself. -/
theorem plain_decodes (h : ∀ c ∈ t, isUnreserved c = true) :
    (percentDecode t >>= utf8Decode false) = some t := by
  have hquoted : quoteFromBytes (t.map fun c => byte c.val) = t := by
    induction t with
    | nil => rfl
    | cons c t ih =>
      have hplain := h c List.mem_cons_self
      have hchr : octetChr (byte c.val) = c :=
        Fin.ext (toNat_byte ((unreserved_lt hplain).trans (by decide)))
      rw [List.map_cons, quoteFromBytes, List.flatMap_cons, ← quoteFromBytes,
        ih fun d hd => h d (List.mem_cons_of_mem _ hd), quoteByte, hchr, if_pos hplain,
        List.singleton_append]
  have hencoded : utf8Encode t = some (t.map fun c => byte c.val) := by
    have hsurrogate : t.any isSurrogate = false := by
      rw [List.any_eq_false]
      intro c hc hs
      have hlt := unreserved_lt (h c hc)
      simp only [isSurrogate, decide_eq_true_eq] at hs
      omega
    rw [utf8Encode, hsurrogate, if_neg Bool.false_ne_true]
    congr 1
    clear hsurrogate hquoted
    induction t with
    | nil => rfl
    | cons c t ih =>
      rw [List.flatMap_cons, List.map_cons, ih fun d hd => h d (List.mem_cons_of_mem _ hd), utf8Char,
        if_pos (unreserved_lt (h c List.mem_cons_self)), List.singleton_append]
  have hdecoded := percentDecode_quoteFromBytes (t.map fun c => byte c.val)
  rw [hquoted] at hdecoded
  rw [hdecoded]
  exact utf8Decode_utf8Encode false hencoded

/-- Texts that are encoded one by one and joined by slashes are found again. -/
theorem pathSegments_intercalate {segments texts : List Text} (hne : segments ≠ [])
    (h : List.Forall₂ (fun segment t => (percentDecode segment >>= utf8Decode false) = some t ∧
      chr '/' ∉ segment) segments texts) :
    pathSegments ([chr '/'].intercalate segments) = some texts := by
  have hslash : ∀ segment ∈ segments, chr '/' ∉ segment := by
    clear hne
    induction h with
    | nil => exact fun _ hmem => absurd hmem List.not_mem_nil
    | cons hfirst _ ih => exact List.forall_mem_cons.mpr ⟨hfirst.2, ih⟩
  rw [pathSegments, List.splitOn_intercalate (chr '/') hslash hne]
  clear hne hslash
  induction h with
  | nil => rfl
  | cons hfirst _ ih =>
    rw [List.mapM_cons, hfirst.1, ih]
    rfl

end Kaskade.Python
