set_option autoImplicit false

/-! # Texts and octets

A **text** is a list of characters, and a sequence of **octets** is a list of bytes. Lists, and
not the packed strings of the standard library, are what every definition of the library works
on: a command line is cut, spaced and joined, and each of these is one recursion on a list.
Packed strings appear where something is shown to the user and nowhere else.

The operating system measures names and paths in octets and orders names by octets, so the two
notions of this file that look at the encoded form are `Text.size`, the number of octets, and
`Text.le`, the order by code points, which is also the order of the encoded forms.
-/

namespace ParallelShell

abbrev Text := List Char

abbrev Octets := List UInt8

def text (literal : String) : Text := literal.toList

namespace Text

def encode (t : Text) : Octets := t.flatMap String.utf8EncodeChar

def size : Text → Nat
  | [] => 0
  | c :: t => c.utf8Size + size t

/-- Lexicographic order by code point. -/
def le : Text → Text → Bool
  | [], _ => true
  | _ :: _, [] => false
  | a :: s, b :: t => a.val < b.val || (a == b && le s t)

def sorted (ts : List Text) : List Text := ts.mergeSort le

/-- The longest initial part of a text that takes at most the given number of octets. -/
def upTo (octets : Nat) : Text → Text
  | [] => []
  | c :: t => if c.utf8Size ≤ octets then c :: upTo (octets - c.utf8Size) t else []

/-- What is left of a text once an initial part is taken off it, if it starts with that part. -/
def after? : Text → Text → Option Text
  | [], t => some t
  | _ :: _, [] => none
  | a :: start, b :: t => if a = b then after? start t else none

@[simp]
theorem encode_nil : encode [] = [] := rfl

@[simp]
theorem encode_cons (c : Char) (t : Text) :
    encode (c :: t) = String.utf8EncodeChar c ++ encode t := by
  simp [encode]

@[simp]
theorem encode_append (s t : Text) : encode (s ++ t) = encode s ++ encode t := by
  simp [encode]

/-- **The forms of characters**, by the number of their octets. -/
theorem utf8EncodeChar_cases (c : Char) :
    (c.toNat < 0x80 ∧ String.utf8EncodeChar c = [UInt8.ofNat c.toNat]) ∨
      (0x80 ≤ c.toNat ∧ c.toNat < 0x800 ∧ String.utf8EncodeChar c =
        [UInt8.ofNat (c.toNat / 64 % 32 + 192), UInt8.ofNat (c.toNat % 64 + 128)]) ∨
      (0x800 ≤ c.toNat ∧ c.toNat < 0x10000 ∧ String.utf8EncodeChar c =
        [UInt8.ofNat (c.toNat / 4096 % 16 + 224), UInt8.ofNat (c.toNat / 64 % 64 + 128),
          UInt8.ofNat (c.toNat % 64 + 128)]) ∨
      (0x10000 ≤ c.toNat ∧ c.toNat < 0x200000 ∧ String.utf8EncodeChar c =
        [UInt8.ofNat (c.toNat / 262144 % 8 + 240), UInt8.ofNat (c.toNat / 4096 % 64 + 128),
          UInt8.ofNat (c.toNat / 64 % 64 + 128), UInt8.ofNat (c.toNat % 64 + 128)]) := by
  have hvalid : c.toNat < 0xD800 ∨ (0xDFFF < c.toNat ∧ c.toNat < 0x110000) := c.valid
  unfold String.utf8EncodeChar Char.toNat at *
  simp only
  by_cases h₁ : c.val.toNat ≤ 0x7F
  · exact .inl ⟨by omega, if_pos h₁⟩
  right
  rw [if_neg h₁]
  by_cases h₂ : c.val.toNat ≤ 0x7FF
  · exact .inl ⟨by omega, by omega, if_pos h₂⟩
  right
  rw [if_neg h₂]
  by_cases h₃ : c.val.toNat ≤ 0xFFFF
  · exact .inl ⟨by omega, by omega, if_pos h₃⟩
  · exact .inr ⟨by omega, by omega, if_neg h₃⟩

@[simp]
theorem size_nil : size [] = 0 := rfl

@[simp]
theorem size_cons (c : Char) (t : Text) : size (c :: t) = c.utf8Size + size t := rfl

@[simp]
theorem size_append (s t : Text) : size (s ++ t) = size s + size t := by
  induction s with
  | nil => simp
  | cons c s ih => simp [ih, Nat.add_assoc]

/-- The size is the length of the encoded form. -/
theorem length_encode (t : Text) : (encode t).length = size t := by
  induction t with
  | nil => rfl
  | cons c t ih => simp [ih]

/-- A text starts with `start`, and continues with `rest`, exactly when it is the two in a row. -/
theorem after?_eq_some_iff (start t rest : Text) :
    after? start t = some rest ↔ t = start ++ rest := by
  induction start generalizing t with
  | nil => simp [after?]
  | cons a start ih =>
      cases t with
      | nil => simp [after?]
      | cons b t =>
          by_cases h : a = b
          · simp [after?, h, ih]
          · simp [after?, h, Ne.symm h]

end Text

/-- The octets a literal stands for. -/
def octets (literal : String) : Octets := Text.encode (text literal)

end ParallelShell
