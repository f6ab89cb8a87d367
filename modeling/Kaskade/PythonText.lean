import Mathlib.Algebra.Order.Ring.Int
import Mathlib.Data.List.DropRight
import Mathlib.Data.List.Infix
import Mathlib.Data.Nat.Notation
import Mathlib.Logic.Function.Basic

/-!
# Python text

A `str` is a finite sequence of Unicode code points, lone surrogates included, and
`bytes` is a sequence of octets. This file fixes both, the whitespace and decimal-digit
classes that `str.split`, `str.strip` and `int` consult, and decimal notation.
-/

namespace Kaskade.Python

/-- A code point. Surrogates are ordinary members of a `str`. -/
abbrev CodePoint := Fin 0x110000

abbrev Text := List CodePoint

abbrev Bytes := List UInt8

instance codePoint_neZero : NeZero 0x110000 := ⟨by decide⟩

instance text_lawfulBEq : LawfulBEq Text := inferInstance

/-- The code point of a character, which is never a surrogate. -/
def chr (c : Char) : CodePoint :=
  ⟨c.toNat, by
    have h := c.valid
    unfold UInt32.isValidChar Nat.isValidChar at h
    unfold Char.toNat
    omega⟩

/-- A string literal as a sequence of code points. -/
def text (s : String) : Text := s.toList.map chr

theorem chr_injective : Function.Injective chr := by
  intro a b h
  exact Char.toNat_inj.mp (Fin.mk.inj_iff.mp h)

@[simp] theorem chr_inj {a b : Char} : chr a = chr b ↔ a = b := chr_injective.eq_iff

@[simp] theorem text_inj {a b : String} : text a = text b ↔ a = b := by
  constructor
  · intro h
    exact String.toList_inj.mp (List.map_injective_iff.mpr chr_injective h)
  · rintro rfl
    rfl

/-- The code points `str.isspace` accepts. -/
def spaceCodes : List ℕ :=
  [0x9, 0xa, 0xb, 0xc, 0xd, 0x1c, 0x1d, 0x1e, 0x1f, 0x20, 0x85, 0xa0, 0x1680,
    0x2000, 0x2001, 0x2002, 0x2003, 0x2004, 0x2005, 0x2006, 0x2007, 0x2008, 0x2009, 0x200a,
    0x2028, 0x2029, 0x202f, 0x205f, 0x3000]

def isSpace (c : CodePoint) : Bool := spaceCodes.contains c.val

def decimalZeros : List ℕ :=
  [0x30, 0x660, 0x6f0, 0x7c0, 0x966, 0x9e6, 0xa66, 0xae6, 0xb66, 0xbe6, 0xc66, 0xce6, 0xd66,
    0xde6, 0xe50, 0xed0, 0xf20, 0x1040, 0x1090, 0x17e0, 0x1810, 0x1946, 0x19d0, 0x1a80, 0x1a90,
    0x1b50, 0x1bb0, 0x1c40, 0x1c50, 0xa620, 0xa8d0, 0xa900, 0xa9d0, 0xa9f0, 0xaa50, 0xabf0,
    0xff10, 0x104a0, 0x10d30, 0x11066, 0x110f0, 0x11136, 0x111d0, 0x112f0, 0x11450, 0x114d0,
    0x11650, 0x116c0, 0x11730, 0x118e0, 0x11950, 0x11c50, 0x11d50, 0x11da0, 0x16a60, 0x16ac0,
    0x16b50, 0x1d7ce, 0x1d7d8, 0x1d7e2, 0x1d7ec, 0x1d7f6, 0x1e140, 0x1e2f0, 0x1e950, 0x1fbf0]

/-- The decimal value `int` gives a digit of any script. -/
def decimalValue? (c : CodePoint) : Option ℕ :=
  (decimalZeros.find? (fun z => z ≤ c.val ∧ c.val < z + 10)).map (c.val - ·)

def isAscii (c : CodePoint) : Bool := c.val < 0x80

/-- A lone surrogate, which UTF-8 refuses to encode. -/
def isSurrogate (c : CodePoint) : Bool := 0xd800 ≤ c.val ∧ c.val ≤ 0xdfff

/-- An ASCII digit, as `[0-9]` matches it. -/
def isDigit (c : CodePoint) : Bool := 0x30 ≤ c.val ∧ c.val ≤ 0x39

def hexValue? (c : CodePoint) : Option ℕ :=
  if 0x30 ≤ c.val ∧ c.val ≤ 0x39 then some (c.val - 0x30)
  else if 0x61 ≤ c.val ∧ c.val ≤ 0x66 then some (c.val - 0x61 + 10)
  else if 0x41 ≤ c.val ∧ c.val ≤ 0x46 then some (c.val - 0x41 + 10)
  else none

def hexDigit (n : ℕ) : CodePoint := chr (Nat.digitChar n)

theorem hexValue?_hexDigit {n : ℕ} (h : n < 16) : hexValue? (hexDigit n) = some n := by
  revert n
  decide

def strip (t : Text) : Text := (t.dropWhile isSpace).rdropWhile isSpace

/-- `str.split()`: the maximal runs without whitespace. -/
def split (t : Text) : List Text := (t.splitOnP isSpace).filter (· ≠ [])

theorem strip_eq_self {t : Text} (h : ∀ c ∈ t, isSpace c = false) : strip t = t := by
  have hhead : t.dropWhile isSpace = t := by
    rw [List.dropWhile_eq_self_iff]
    intro hpos
    simp [h _ (List.getElem_mem hpos)]
  rw [strip, hhead, List.rdropWhile_eq_self_iff]
  intro hne
  simp [h _ (List.getLast_mem hne)]

private theorem flatten_splitOnP {α : Type*} (p : α → Bool) (xs : List α) :
    (xs.splitOnP p).flatten = xs.filter (fun x => !p x) := by
  induction xs with
  | nil => simp
  | cons x xs ih =>
    obtain ⟨head, tail, h⟩ := List.exists_cons_of_ne_nil (List.splitOnP_ne_nil p xs)
    rw [List.splitOnP_cons_eq_if_modifyHead]
    rw [h] at ih ⊢
    cases hp : p x with
    | true => simpa [hp] using ih
    | false => simpa [hp] using ih

/-- Joining the words of a text leaves its code points that are not whitespace. -/
theorem flatten_split (t : Text) : (split t).flatten = t.filter (fun c => !isSpace c) := by
  rw [split, List.flatten_filter_ne_nil, flatten_splitOnP]

/-- `str(n)` of a natural number. -/
def natText (n : ℕ) : Text := (Nat.toDigits 10 n).map chr

/-- `str(i)` of an integer. -/
def intText : ℤ → Text
  | .ofNat n => natText n
  | .negSucc n => chr '-' :: natText (n + 1)

/-- The number an ASCII digit sequence denotes, most significant digit first. -/
def digitsValue (ds : Text) : ℕ := ds.foldl (fun acc c => 10 * acc + (c.val - 0x30)) 0

@[simp] theorem chr_val (c : Char) : (chr c).val = c.toNat := rfl

theorem isDigit_chr (c : Char) : isDigit (chr c) = c.isDigit := by
  rw [Bool.eq_iff_iff, Char.isDigit_iff_toNat, isDigit, decide_eq_true_iff]
  exact Iff.rfl

@[simp] theorem digitsValue_natText (n : ℕ) : digitsValue (natText n) = n := by
  have h := Nat.ofDigitChars_ten_toDigits (n := n)
  rw [Nat.ofDigitChars_eq_foldl] at h
  simpa [digitsValue, natText, List.foldl_map] using h

/-- Digits denote a number below the power of ten that they are long. -/
theorem foldl_digits_lt {ds : List ℕ} (h : ∀ d ∈ ds, d < 10) (acc : ℕ) :
    ds.foldl (fun acc d => 10 * acc + d) acc < (acc + 1) * 10 ^ ds.length := by
  induction ds generalizing acc with
  | nil => simp
  | cons d ds ih =>
    have hd := h d List.mem_cons_self
    have hrest := ih (fun e he => h e (List.mem_cons_of_mem d he)) (10 * acc + d)
    rw [List.foldl_cons, List.length_cons]
    calc _ < (10 * acc + d + 1) * 10 ^ ds.length := hrest
      _ ≤ ((acc + 1) * 10) * 10 ^ ds.length := Nat.mul_le_mul_right _ (by omega)
      _ = (acc + 1) * 10 ^ (ds.length + 1) := by rw [Nat.pow_succ', Nat.mul_assoc]

theorem digitsValue_lt {ds : Text} (h : ∀ c ∈ ds, isDigit c) : digitsValue ds < 10 ^ ds.length := by
  have hdigits : ∀ d ∈ ds.map fun c => c.val - 0x30, d < 10 := by
    intro d hd
    obtain ⟨c, hc, rfl⟩ := List.mem_map.mp hd
    have hrange := h c hc
    rw [isDigit, decide_eq_true_iff] at hrange
    omega
  simpa [digitsValue, List.foldl_map] using foldl_digits_lt hdigits 0

theorem natText_injective : Function.Injective natText := fun m n h => by
  rw [← digitsValue_natText m, h, digitsValue_natText]

theorem natText_ne_nil (n : ℕ) : natText n ≠ [] := by
  simp [natText, Nat.toDigits_ne_nil]

theorem isDigit_of_mem_natText {n : ℕ} {c : CodePoint} (h : c ∈ natText n) : isDigit c := by
  obtain ⟨d, hd, rfl⟩ := List.mem_map.mp h
  rw [isDigit_chr]
  exact Nat.isDigit_of_mem_toDigits (by decide) (by decide) hd

private theorem toDigits_head_ne_zero (n : ℕ) (hn : n ≠ 0) :
    (Nat.toDigits 10 n).head? ≠ some '0' := by
  induction n using Nat.strongRecOn with
  | ind n ih =>
    rw [Nat.toDigits_eq_if (by decide)]
    split_ifs with h
    · simpa using hn
    · have hq : n / 10 ≠ 0 := by omega
      have hne : Nat.toDigits 10 (n / 10) ≠ [] := Nat.toDigits_ne_nil
      rw [List.head?_append_of_ne_nil _ hne]
      exact ih (n / 10) (by omega) hq

theorem natText_head_ne_zero {n : ℕ} (hn : n ≠ 0) : (natText n).head? ≠ some (chr '0') := by
  intro h
  rw [natText, List.head?_map, Option.map_eq_some_iff] at h
  obtain ⟨c, hc, he⟩ := h
  rw [chr_inj] at he
  exact toDigits_head_ne_zero n hn (he ▸ hc)

theorem intText_eq (i : ℤ) :
    intText i = (if decide (i < 0) then [chr '-'] else []) ++ natText i.natAbs := by
  cases i with
  | ofNat n => rfl
  | negSucc n => simp [intText, Int.negSucc_lt_zero]

theorem intText_ne_nil (i : ℤ) : intText i ≠ [] := by
  rw [intText_eq]
  exact List.append_ne_nil_of_right_ne_nil _ (natText_ne_nil _)

theorem intText_injective : Function.Injective intText := by
  have hminus : ∀ m n : ℕ, natText m ≠ chr '-' :: natText n := by
    intro m n h
    have hdigit := isDigit_of_mem_natText (h ▸ List.mem_cons_self : chr '-' ∈ natText m)
    exact absurd hdigit (by decide)
  intro i j h
  cases i with
  | ofNat m =>
    cases j with
    | ofNat n => exact congrArg Int.ofNat (natText_injective h)
    | negSucc n => exact absurd h (hminus _ _)
  | negSucc m =>
    cases j with
    | ofNat n => exact absurd h.symm (hminus _ _)
    | negSucc n => exact congrArg Int.negSucc (Nat.succ_injective (natText_injective (List.cons.inj h).2))

@[simp] theorem natText_zero : natText 0 = [chr '0'] := by simp [natText]

def digitRun : Text → Option (List ℕ)
  | [] => none
  | c :: t =>
    match decimalValue? c with
    | none => none
    | some d =>
      match t with
      | [] => some [d]
      | u :: rest =>
        if u = chr '_' then (digitRun rest).map (d :: ·) else (digitRun (u :: rest)).map (d :: ·)

/-- `int(t)` of a text without surrounding whitespace; `none` stands for `ValueError`,
which also reports more digits than the interpreter converts. -/
def parseInt? (maxDigits : ℕ) (t : Text) : Option ℤ :=
  let negative := t.head? == some (chr '-')
  let signed := negative || t.head? == some (chr '+')
  match digitRun (if signed then t.tail else t) with
  | none => none
  | some ds =>
    if maxDigits < ds.length then none
    else
      let n : ℕ := ds.foldl (fun acc d => 10 * acc + d) 0
      some (if negative then -n else n)

example : parseInt? 4300 (text "-1_024") = some (-1024) := by decide

end Kaskade.Python
