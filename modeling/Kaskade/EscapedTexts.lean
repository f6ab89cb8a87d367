import Kaskade.RecordModels
import Kaskade.SerializationErrors

/-!
# Escaped octets

The texts of the escaped encoding are concatenations of tokens: a printable ASCII
character other than the backslash, two backslashes, or `\x` with two hexadecimal digits.
The serializer searches a text for escapes and checks what stands between them; it accepts
the texts of this grammar and rejects all others.
-/

namespace Kaskade

open Python

/-- A printable ASCII character other than the backslash. -/
def isPlain (c : CodePoint) : Bool := 0x20 ≤ c.val && c.val ≤ 0x7e && c != chr '\\'

inductive EscapeToken where
  | plain (c : CodePoint) (printable : isPlain c)
  | backslash
  | octet (high low : CodePoint) (highDigit : (hexValue? high).isSome)
      (lowDigit : (hexValue? low).isSome)

namespace EscapeToken

def text : EscapeToken → Text
  | plain c _ => [c]
  | backslash => [chr '\\', chr '\\']
  | octet high low _ _ => [chr '\\', chr 'x', high, low]

def value : EscapeToken → UInt8
  | plain c _ => byte c.val
  | backslash => 0x5c
  | octet high low highDigit lowDigit =>
    byte ((hexValue? high).get highDigit * 16 + (hexValue? low).get lowDigit)

def written (tokens : List EscapeToken) : Text := tokens.flatMap text

def octets (tokens : List EscapeToken) : Bytes := tokens.map value

def IsCanonical : EscapeToken → Prop
  | plain _ _ => True
  | backslash => True
  | octet high low highDigit lowDigit =>
    (∀ c ∈ [high, low], c.val < 0x41 ∨ 0x61 ≤ c.val) ∧
      ¬ (0x20 ≤ (value (octet high low highDigit lowDigit)).toNat ∧
        (value (octet high low highDigit lowDigit)).toNat ≤ 0x7e)

end EscapeToken

open EscapeToken in
/-- The text in canonical tokens that stands for the same octets, of which there is one. -/
structure CanonicalForm (tokens : List EscapeToken) (form : Text) : Prop where
  canonical : ∃ forms, (∀ token ∈ forms, token.IsCanonical) ∧ octets forms = octets tokens ∧
    written forms = form
  unique : ∀ forms, (∀ token ∈ forms, token.IsCanonical) → octets forms = octets tokens →
    written forms = form

theorem escape?_of_ne {c : CodePoint} (h : c ≠ chr '\\') (t : Text) : escape? (c :: t) = none := by
  cases t with
  | nil => rfl
  | cons d t => simp [escape?, h]

theorem escape?_backslash (t : Text) :
    escape? (EscapeToken.backslash.text ++ t) = some (EscapeToken.backslash.value, t) := rfl

theorem escape?_octet (high low : CodePoint) (highDigit : (hexValue? high).isSome)
    (lowDigit : (hexValue? low).isSome) (t : Text) :
    escape? ((EscapeToken.octet high low highDigit lowDigit).text ++ t) =
      some ((EscapeToken.octet high low highDigit lowDigit).value, t) := by
  obtain ⟨a, ha⟩ := Option.isSome_iff_exists.mp highDigit
  obtain ⟨b, hb⟩ := Option.isSome_iff_exists.mp lowDigit
  have hx : chr 'x' ≠ chr '\\' := by decide
  simp only [EscapeToken.text, List.cons_append, List.nil_append, escape?, ne_eq, not_true_eq_false,
    if_false, hx, if_true, ha, hb, EscapeToken.value, Option.get_some]

theorem escape?_eq_some {t rest : Text} {b : UInt8} (h : escape? t = some (b, rest)) :
    ∃ token : EscapeToken, t = token.text ++ rest ∧ token.value = b := by
  unfold escape? at h
  split at h
  case h_2 => cases h
  case h_1 c d t =>
    split_ifs at h with hc hd hx
    · obtain ⟨rfl, rfl⟩ := Prod.mk.inj (Option.some.inj h)
      have hc := not_not.mp hc
      subst hc hd
      exact ⟨.backslash, rfl, rfl⟩
    · split at h
      case h_2 => cases h
      case h_1 high low rest' =>
        split at h
        case h_2 => cases h
        case h_1 a b' ha hb =>
          obtain ⟨rfl, rfl⟩ := Prod.mk.inj (Option.some.inj h)
          have hc := not_not.mp hc
          subst hc hx
          refine ⟨.octet high low (by rw [ha]; rfl) (by rw [hb]; rfl), rfl, ?_⟩
          simp only [EscapeToken.value, ha, hb, Option.get_some]

theorem findEscapes_escape {t rest : Text} {b : UInt8} (h : escape? t = some (b, rest)) :
    findEscapes t = (([], b) :: (findEscapes rest).1, (findEscapes rest).2) := by
  rw [findEscapes]
  split
  case h_1 b' rest' h' =>
    rw [h] at h'
    cases h'
    rfl
  case h_2 h' =>
    rw [h] at h'
    cases h'

theorem findEscapes_plain {c : CodePoint} {t : Text} (h : escape? (c :: t) = none) :
    findEscapes (c :: t) =
      match findEscapes t with
      | ([], last) => ([], c :: last)
      | ((plain, b) :: found, last) => ((c :: plain, b) :: found, last) := by
  rw [findEscapes]
  split
  case h_1 b' rest' h' =>
    rw [h] at h'
    cases h'
  case h_2 => rfl

theorem asciiBytes_cons (c : CodePoint) (t : Text) :
    asciiBytes (c :: t) =
      if isPlain c then (asciiBytes t).map (byte c.val :: ·) else asciiBytes [chr '\\'] := by
  have hall : ∀ s : Text, s.all (fun c => 0x20 ≤ c.val && c.val ≤ 0x7e && c != chr '\\') =
      s.all isPlain := fun s => rfl
  simp only [asciiBytes, hall, List.all_cons]
  cases isPlain c with
  | false => rfl
  | true =>
    cases t.all isPlain with
    | false => rfl
    | true => rfl

theorem escapedSerialize_escape {t rest : Text} {b : UInt8} (h : escape? t = some (b, rest)) :
    escapedSerialize t = (escapedSerialize rest).map (b :: ·) := by
  simp only [escapedSerialize, findEscapes_escape h, List.mapM_cons]
  cases (findEscapes rest).1.mapM (fun pe => (asciiBytes pe.1).map (· ++ [pe.2])) with
  | error e => rfl
  | ok parts =>
    cases asciiBytes (findEscapes rest).2 with
    | error e => rfl
    | ok tail => rfl

theorem escapedSerialize_plain {c : CodePoint} {t : Text} (h : escape? (c :: t) = none) :
    escapedSerialize (c :: t) =
      if isPlain c then (escapedSerialize t).map (byte c.val :: ·) else asciiBytes [chr '\\'] := by
  simp only [escapedSerialize, findEscapes_plain h]
  rcases findEscapes t with ⟨_ | ⟨⟨plain, b⟩, found⟩, last⟩
  · simp only [List.mapM_nil, asciiBytes_cons c last]
    cases isPlain c with
    | false => rfl
    | true => cases asciiBytes last <;> rfl
  · simp only [List.mapM_cons, asciiBytes_cons c plain]
    cases isPlain c with
    | false => rfl
    | true =>
      cases asciiBytes plain with
      | error e => rfl
      | ok before =>
        cases found.mapM (fun pe => (asciiBytes pe.1).map (· ++ [pe.2])) with
        | error e => rfl
        | ok parts => cases asciiBytes last <;> rfl

theorem escapedSerialize_nil : escapedSerialize [] = .ok [] := by
  have hfind : findEscapes [] = ([], []) := by
    rw [findEscapes]
    rfl
  rw [escapedSerialize, hfind]
  rfl

open EscapeToken

/-- A written sequence of tokens is accepted, with the octets of its tokens. -/
theorem escapedSerialize_written (tokens : List EscapeToken) :
    escapedSerialize (written tokens) = .ok (octets tokens) := by
  induction tokens with
  | nil => exact escapedSerialize_nil
  | cons token tokens ih =>
    have hstep : escapedSerialize (token.text ++ written tokens) =
        (escapedSerialize (written tokens)).map (token.value :: ·) := by
      cases token with
      | plain c printable =>
        have hc : c ≠ chr '\\' := by
          rintro rfl
          cases printable
        exact (escapedSerialize_plain (escape?_of_ne hc _)).trans (if_pos printable)
      | backslash => exact escapedSerialize_escape (escape?_backslash _)
      | octet high low highDigit lowDigit =>
        exact escapedSerialize_escape (escape?_octet high low highDigit lowDigit _)
    rw [written, List.flatMap_cons, ← written, hstep, ih]
    rfl

theorem exists_written {t : Text} {data : Bytes} (h : escapedSerialize t = .ok data) :
    ∃ tokens, written tokens = t := by
  induction hlength : t.length using Nat.strong_induction_on generalizing t data with
  | _ n ih =>
    subst hlength
    cases hescape : escape? t with
    | some found =>
      obtain ⟨b, rest⟩ := found
      rw [escapedSerialize_escape hescape] at h
      obtain ⟨token, rfl, -⟩ := escape?_eq_some hescape
      cases hrest : escapedSerialize rest with
      | error e =>
        rw [hrest] at h
        cases h
      | ok octets =>
        obtain ⟨tokens, rfl⟩ := ih rest.length (escape?_length hescape) hrest rfl
        exact ⟨token :: tokens, List.flatMap_cons⟩
    | none =>
      cases t with
      | nil => exact ⟨[], rfl⟩
      | cons c rest =>
        rw [escapedSerialize_plain hescape] at h
        by_cases hplain : isPlain c
        · rw [if_pos hplain] at h
          cases hrest : escapedSerialize rest with
          | error e =>
            rw [hrest] at h
            cases h
          | ok octets =>
            obtain ⟨tokens, rfl⟩ := ih rest.length (Nat.lt_succ_self _) hrest rfl
            exact ⟨.plain c hplain :: tokens, List.flatMap_cons⟩
        · rw [if_neg hplain] at h
          cases h

theorem escapedSerialize_eq_ok {t : Text} {data : Bytes} :
    escapedSerialize t = .ok data ↔ ∃ tokens, written tokens = t ∧ octets tokens = data := by
  constructor
  · intro h
    obtain ⟨tokens, rfl⟩ := exists_written h
    rw [escapedSerialize_written] at h
    exact ⟨tokens, rfl, Except.ok.inj h⟩
  · rintro ⟨tokens, rfl, rfl⟩
    exact escapedSerialize_written tokens

theorem hexDigit_hexValue {c : CodePoint} {n : ℕ} (hvalue : hexValue? c = some n)
    (hlower : c.val < 0x41 ∨ 0x61 ≤ c.val) : n < 16 ∧ hexDigit n = c := by
  have hdigit : ∀ n < 16, (hexDigit n).val = if n < 10 then 0x30 + n else 0x57 + n := by decide
  rw [hexValue?] at hvalue
  split_ifs at hvalue with h₁ h₂ h₃
  · obtain rfl := Option.some.inj hvalue
    have hn : c.val - 0x30 < 10 := by omega
    refine ⟨by omega, Fin.ext ?_⟩
    rw [hdigit _ (by omega), if_pos hn]
    omega
  · obtain rfl := Option.some.inj hvalue
    have hn : ¬ c.val - 0x61 + 10 < 10 := by omega
    refine ⟨by omega, Fin.ext ?_⟩
    rw [hdigit _ (by omega), if_neg hn]
    omega
  · omega

theorem hexValue?_hexDigit_isSome {n : ℕ} (h : n < 16) : (hexValue? (hexDigit n)).isSome := by
  rw [hexValue?_hexDigit h]
  rfl

theorem hexDigit_lower {n : ℕ} (h : n < 16) :
    (hexDigit n).val < 0x41 ∨ 0x61 ≤ (hexDigit n).val := by
  revert n
  decide

theorem isPlain_octet {b : UInt8} (h : b.toNat < 0x110000) :
    isPlain ⟨b.toNat, h⟩ ↔ 0x20 ≤ b.toNat ∧ b.toNat ≤ 0x7e ∧ b ≠ 0x5c := by
  have hchr : (⟨b.toNat, h⟩ : CodePoint) = chr '\\' ↔ b = 0x5c := by
    rw [Fin.ext_iff, ← UInt8.toNat_inj]
    exact Iff.rfl
  simp only [isPlain, Bool.and_eq_true, decide_eq_true_eq, bne_iff_ne, ne_eq, hchr, and_assoc]

namespace EscapeToken

def ofOctet (b : UInt8) : EscapeToken :=
  have hb := b.toNat_lt
  if h : isPlain ⟨b.toNat, by omega⟩ then plain ⟨b.toNat, by omega⟩ h
  else if b = 0x5c then backslash
  else octet (hexDigit (b.toNat / 16)) (hexDigit (b.toNat % 16))
    (hexValue?_hexDigit_isSome (by omega)) (hexValue?_hexDigit_isSome (by omega))

theorem value_ofOctet (b : UInt8) : (ofOctet b).value = b := by
  have hb := b.toNat_lt
  rw [ofOctet]
  split_ifs with hplain hbackslash
  · exact UInt8.ofNat_toNat
  · exact hbackslash.symm
  · simp only [value, hexValue?_hexDigit (show b.toNat / 16 < 16 by omega),
      hexValue?_hexDigit (show b.toNat % 16 < 16 by omega), Option.get_some]
    rw [Nat.div_add_mod', byte, UInt8.ofNat_toNat]

theorem text_ofOctet (b : UInt8) : (ofOctet b).text = escapedByte b := by
  rw [ofOctet, escapedByte]
  by_cases hplain : 0x20 ≤ b.toNat ∧ b.toNat ≤ 0x7e ∧ b ≠ 0x5c
  · rw [dif_pos ((isPlain_octet _).mpr hplain), if_pos hplain]
    rfl
  · rw [dif_neg (fun h => hplain ((isPlain_octet _).mp h)), if_neg hplain]
    split_ifs <;> rfl

theorem isCanonical_ofOctet (b : UInt8) : (ofOctet b).IsCanonical := by
  have hb := b.toNat_lt
  have hvalue := value_ofOctet b
  rw [ofOctet] at hvalue ⊢
  split_ifs at hvalue ⊢ with hplain hbackslash
  · trivial
  · trivial
  · refine ⟨fun c hc => ?_, fun hprintable => ?_⟩
    · rcases List.mem_pair.mp hc with rfl | rfl
      · exact hexDigit_lower (by omega)
      · exact hexDigit_lower (by omega)
    · rw [hvalue] at hprintable
      exact hplain ((isPlain_octet _).mpr ⟨hprintable.1, hprintable.2, hbackslash⟩)

theorem IsCanonical.eq_ofOctet {token : EscapeToken} (h : token.IsCanonical) :
    ofOctet token.value = token := by
  cases token with
  | plain c printable =>
    have hc : c.val < 256 := by
      simp only [isPlain, Bool.and_eq_true, decide_eq_true_eq] at printable
      omega
    have htoNat : (byte c.val).toNat = c.val := toNat_byte hc
    simp only [value, ofOctet, htoNat]
    exact dif_pos printable
  | backslash => rfl
  | octet high low highDigit lowDigit =>
    obtain ⟨hlower, hoctet⟩ := h
    obtain ⟨m, hm⟩ := Option.isSome_iff_exists.mp highDigit
    obtain ⟨n, hn⟩ := Option.isSome_iff_exists.mp lowDigit
    obtain ⟨hm16, rfl⟩ := hexDigit_hexValue hm (hlower high List.mem_cons_self)
    obtain ⟨hn16, rfl⟩ := hexDigit_hexValue hn (hlower low (List.mem_pair.mpr (.inr rfl)))
    simp only [value, hm, hn, Option.get_some] at hoctet ⊢
    have htoNat : (byte (m * 16 + n)).toNat = m * 16 + n := toNat_byte (by omega)
    have hbackslash : byte (m * 16 + n) ≠ 0x5c := by
      intro he
      rw [he] at hoctet
      exact hoctet (by decide)
    rw [ofOctet, dif_neg (fun h => hoctet ((isPlain_octet _).mp h |>.imp_right And.left)),
      if_neg hbackslash]
    have hdiv : (m * 16 + n) / 16 = m := by omega
    have hmod : (m * 16 + n) % 16 = n := by omega
    simp only [htoNat, hdiv, hmod]

theorem written_map_ofOctet (data : Bytes) : written (data.map ofOctet) = escapedBytes data := by
  rw [written, List.flatMap_map, escapedBytes]
  exact List.flatMap_congr fun b _ => text_ofOctet b

theorem octets_map_ofOctet (data : Bytes) : octets (data.map ofOctet) = data := by
  rw [octets, List.map_map]
  exact (List.map_congr_left fun b _ => value_ofOctet b).trans data.map_id

/-- What the consumer writes for the octets of a text is its canonical form. -/
theorem canonicalForm_escapedBytes (tokens : List EscapeToken) :
    CanonicalForm tokens (escapedBytes (octets tokens)) where
  canonical := by
    refine ⟨(octets tokens).map ofOctet, ?_, octets_map_ofOctet _, written_map_ofOctet _⟩
    intro token htoken
    obtain ⟨b, -, rfl⟩ := List.mem_map.mp htoken
    exact isCanonical_ofOctet b
  unique forms hforms hoctets := by
    have hforms : (octets forms).map ofOctet = forms := by
      rw [octets, List.map_map]
      exact (List.map_congr_left fun token htoken => (hforms token htoken).eq_ofOctet).trans
        forms.map_id
    rw [← hoctets, ← written_map_ofOctet, hforms]

end EscapeToken

theorem eq_serializationError {e : PyException} (h : e.isInstance [.serializationError]) :
    e = serializationError e.message := by
  obtain ⟨cls, message⟩ := e
  cases cls <;> first | rfl | cases h

/-- The serializer accepts exactly the texts of the grammar, with the octets of their tokens,
and raises `SerializationError` on every other text; the consumer writes the octets of an
accepted text in its canonical form. -/
theorem escapedSerialize_grammar (t : Text) :
    (∀ data, escapedSerialize t = .ok data ↔ ∃ tokens, written tokens = t ∧ octets tokens = data) ∧
      ((∀ tokens, written tokens ≠ t) →
        ∃ message, escapedSerialize t = .error (serializationError message)) ∧
      ∀ tokens data, written tokens = t → escapedSerialize t = .ok data →
        CanonicalForm tokens (escapedBytes data) := by
  refine ⟨fun data => escapedSerialize_eq_ok, fun hother => ?_, fun tokens data htokens hdata => ?_⟩
  · cases hserialize : escapedSerialize t with
    | ok data =>
      obtain ⟨tokens, htokens⟩ := exists_written hserialize
      exact absurd htokens (hother tokens)
    | error e =>
      have he := eq_serializationError (escapedSerialize_raisesOnly t e hserialize)
      exact ⟨e.message, congrArg Except.error he⟩
  · subst htokens
    rw [escapedSerialize_written] at hdata
    rw [← Except.ok.inj hdata]
    exact canonicalForm_escapedBytes tokens

example : escapedSerialize (text "a\\\\x\\x41") = .ok [0x61, 0x5c, 0x78, 0x41] :=
  escapedSerialize_written
    [.plain (chr 'a') rfl, .backslash, .plain (chr 'x') rfl, .octet (chr '4') (chr '1') rfl rfl]

end Kaskade
