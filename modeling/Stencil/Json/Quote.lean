/-
# Stencil.Json.Quote -- JSON strings as they are written

Between its quotes a JSON string holds escapes.  `scan` finds where a written string ends and
checks that every escape is a word of the grammar; `decode?` gives the text that it stands for and
refuses an escape that is one half of a surrogate pair; `encode` writes a text with the shortest
escapes.  What `encode` writes, `scan` and `decode?` read (`scan_encode`, `decode?_encode`).
-/
import Stencil.Text.Basic

set_option autoImplicit false

namespace Stencil.Json

/-- The character that a one-letter escape stands for. -/
def escaped? (c : Char) : Option Char :=
  if c = '"' then some '"'
  else if c = '\\' then some '\\'
  else if c = '/' then some '/'
  else if c = 'b' then some '\x08'
  else if c = 'f' then some '\x0c'
  else if c = 'n' then some '\n'
  else if c = 'r' then some '\r'
  else if c = 't' then some '\t'
  else none

/-- The code unit that four hexadecimal digits spell. -/
def unit? (a b c d : Char) : Option Nat := Text.hexNumber? [a, b, c, d]

/-- The written string up to its closing quote, and what follows the quote. -/
def scan : Text → Option (Text × Text)
  | [] => none
  | '"' :: rest => some ([], rest)
  | '\\' :: 'u' :: a :: b :: c :: d :: rest => do
      let _ ← unit? a b c d
      let (body, after) ← scan rest
      some ('\\' :: 'u' :: a :: b :: c :: d :: body, after)
  | '\\' :: e :: rest => do
      let _ ← escaped? e
      let (body, after) ← scan rest
      some ('\\' :: e :: body, after)
  | c :: rest =>
      if c < ' ' ∨ c = '\\' then none
      else do
        let (body, after) ← scan rest
        some (c :: body, after)

/-- Whether a code unit is the first half of a surrogate pair. -/
def isHighHalf (n : Nat) : Bool := 0xD800 ≤ n && n < 0xDC00

/-- Whether a code unit is the second half of a surrogate pair. -/
def isLowHalf (n : Nat) : Bool := 0xDC00 ≤ n && n < 0xE000

/-- The text that a written string stands for. -/
def decode? : Text → Option Text
  | [] => some []
  | '\\' :: 'u' :: a :: b :: c :: d :: rest => do
      let n ← unit? a b c d
      if isHighHalf n then
        match rest with
        | '\\' :: 'u' :: e :: f :: g :: h :: rest' =>
            let m ← unit? e f g h
            if isLowHalf m then
              let s ← decode? rest'
              some (Char.ofNat (0x10000 + (n - 0xD800) * 0x400 + (m - 0xDC00)) :: s)
            else none
        | _ => none
      else if isLowHalf n then none
      else
        let s ← decode? rest
        some (Char.ofNat n :: s)
  | '\\' :: e :: rest => do
      let c ← escaped? e
      let s ← decode? rest
      some (c :: s)
  | c :: rest =>
      if c = '\\' then none
      else do
        let s ← decode? rest
        some (c :: s)

/-- The hexadecimal digit of a number below 16, in lower case. -/
def hexChar (n : Nat) : Char := if n < 10 then Char.ofNat (48 + n) else Char.ofNat (87 + n)

/-- How a character is written inside a JSON string. -/
def encodeChar (c : Char) : Text :=
  if c = '"' then ['\\', '"']
  else if c = '\\' then ['\\', '\\']
  else if c = '\x08' then ['\\', 'b']
  else if c = '\x0c' then ['\\', 'f']
  else if c = '\n' then ['\\', 'n']
  else if c = '\r' then ['\\', 'r']
  else if c = '\t' then ['\\', 't']
  else if c < ' ' then
    ['\\', 'u', '0', '0', hexChar (c.toNat / 16), hexChar (c.toNat % 16)]
  else [c]

def encode (s : Text) : Text := s.flatMap encodeChar

@[simp] theorem encode_nil : encode [] = [] := rfl

@[simp] theorem encode_cons (c : Char) (s : Text) :
    encode (c :: s) = encodeChar c ++ encode s := rfl

/-! ## Reading what was written -/

theorem escaped?_ne_u {e c : Char} (h : escaped? e = some c) : e ≠ 'u' := by
  rintro rfl
  simp [escaped?] at h

theorem scan_escape {e c : Char} (h : escaped? e = some c) (s : Text) :
    scan ('\\' :: e :: s) = (scan s).map fun found => ('\\' :: e :: found.1, found.2) := by
  rw [scan.eq_def]
  simp [h, escaped?_ne_u h]
  cases scan s <;> rfl

theorem scan_unit {a b c d : Char} {n : Nat} (h : unit? a b c d = some n) (s : Text) :
    scan ('\\' :: 'u' :: a :: b :: c :: d :: s) =
      (scan s).map fun found => ('\\' :: 'u' :: a :: b :: c :: d :: found.1, found.2) := by
  rw [scan.eq_def]
  simp [h]
  cases scan s <;> rfl

theorem scan_plain {c : Char} (quote : c ≠ '"') (backslash : c ≠ '\\') (control : ¬c < ' ')
    (s : Text) : scan (c :: s) = (scan s).map fun found => (c :: found.1, found.2) := by
  rw [scan.eq_def]
  simp [backslash, control]
  cases scan s <;> rfl

theorem decode?_escape {e c : Char} (h : escaped? e = some c) (s : Text) :
    decode? ('\\' :: e :: s) = (decode? s).map (c :: ·) := by
  rw [decode?.eq_def]
  simp [h, escaped?_ne_u h]
  cases decode? s <;> rfl

theorem decode?_unit {a b c d : Char} {n : Nat} (h : unit? a b c d = some n)
    (high : isHighHalf n = false) (low : isLowHalf n = false) (s : Text) :
    decode? ('\\' :: 'u' :: a :: b :: c :: d :: s) = (decode? s).map (Char.ofNat n :: ·) := by
  rw [decode?.eq_def]
  simp [h, high, low]
  cases decode? s <;> rfl

theorem decode?_plain {c : Char} (backslash : c ≠ '\\') (s : Text) :
    decode? (c :: s) = (decode? s).map (c :: ·) := by
  rw [decode?.eq_def]
  simp [backslash]
  cases decode? s <;> rfl

/-- The controls below the space are read from their two hexadecimal digits. -/
theorem unit?_hexChar :
    ∀ n < 32, unit? '0' '0' (hexChar (n / 16)) (hexChar (n % 16)) = some n := by
  decide

/-- How a character is written: by an escape of one letter, by its code point, or as it is. -/
theorem encodeChar_cases (c : Char) :
    (∃ e, escaped? e = some c ∧ encodeChar c = ['\\', e]) ∨
      (c < ' ' ∧ encodeChar c =
        ['\\', 'u', '0', '0', hexChar (c.toNat / 16), hexChar (c.toNat % 16)]) ∨
      (c ≠ '"' ∧ c ≠ '\\' ∧ ¬c < ' ' ∧ encodeChar c = [c]) := by
  by_cases h₁ : c = '"'
  · exact .inl ⟨'"', by subst h₁; decide, by subst h₁; decide⟩
  by_cases h₂ : c = '\\'
  · exact .inl ⟨'\\', by subst h₂; decide, by subst h₂; decide⟩
  by_cases h₃ : c = '\x08'
  · exact .inl ⟨'b', by subst h₃; decide, by subst h₃; decide⟩
  by_cases h₄ : c = '\x0c'
  · exact .inl ⟨'f', by subst h₄; decide, by subst h₄; decide⟩
  by_cases h₅ : c = '\n'
  · exact .inl ⟨'n', by subst h₅; decide, by subst h₅; decide⟩
  by_cases h₆ : c = '\r'
  · exact .inl ⟨'r', by subst h₆; decide, by subst h₆; decide⟩
  by_cases h₇ : c = '\t'
  · exact .inl ⟨'t', by subst h₇; decide, by subst h₇; decide⟩
  by_cases h₈ : c < ' '
  · exact .inr (.inl ⟨h₈, by simp [encodeChar, h₁, h₂, h₃, h₄, h₅, h₆, h₇, h₈]⟩)
  · exact .inr (.inr ⟨h₁, h₂, h₈, by simp [encodeChar, h₁, h₂, h₃, h₄, h₅, h₆, h₇, h₈]⟩)

/-- A written text ends where its closing quote stands. -/
theorem scan_encode (s rest : Text) : scan (encode s ++ '"' :: rest) = some (encode s, rest) := by
  induction s with
  | nil => rfl
  | cons c s ih =>
      rw [encode_cons, List.append_assoc]
      rcases encodeChar_cases c with ⟨e, he, hc⟩ | ⟨low, hc⟩ | ⟨h₁, h₂, h₃, hc⟩
      · simp [hc, scan_escape he, ih]
      · simp [hc, scan_unit (unit?_hexChar c.toNat low), ih]
      · simp [hc, scan_plain h₁ h₂ h₃, ih]

/-- What was written is read back. -/
theorem decode?_encode (s : Text) : decode? (encode s) = some s := by
  induction s with
  | nil => rfl
  | cons c s ih =>
      rw [encode_cons]
      rcases encodeChar_cases c with ⟨e, he, hc⟩ | ⟨low, hc⟩ | ⟨h₁, h₂, h₃, hc⟩
      · simp [hc, decode?_escape he, ih]
      · have small : c.toNat < 32 := low
        have high : isHighHalf c.toNat = false := by simp [isHighHalf]; omega
        have low : isLowHalf c.toNat = false := by simp [isLowHalf]; omega
        simp [hc, decode?_unit (unit?_hexChar c.toNat small) high low, ih]
      · simp [hc, decode?_plain h₂, ih]

end Stencil.Json
