import ParallelShell.Proofs.Text.Decode

set_option autoImplicit false

/-! # Decoding what was encoded

The UTF-8 form of a text is read back as the text (`Text.decode_encode_append`). The form of a
character has one octet to four. The first one tells how many there are, and in which range the
second has to lie (`start_two`, `start_three`, `start_four`); of each of the others, six bits are
added to the number. The ranges are narrower than six bits exactly where a shorter form would do,
or the number is none of a character.

What a decoder takes to complete the character that it stands in is `Decoder.Completes`. The octets
of a form behind the first do that (`exists_completes`), and what completes a character is read as
the character, whatever comes behind it (`Completes.run_append`).
-/

namespace ParallelShell

namespace Decoder

/-! ## Octet by octet -/

theorem start_two : ∀ lead < 32, 2 ≤ lead →
    start (UInt8.ofNat (lead + 192)) = ([], inside 1 0x80 0xBF lead) := by
  decide

theorem start_three : ∀ lead < 16, start (UInt8.ofNat (lead + 224)) =
    ([], inside 2 (if lead = 0 then 0xA0 else 0x80) (if lead = 13 then 0x9F else 0xBF) lead) := by
  decide

theorem start_four : ∀ lead < 5, start (UInt8.ofNat (lead + 240)) =
    ([], inside 3 (if lead = 0 then 0x90 else 0x80) (if lead = 4 then 0x8F else 0xBF) lead) := by
  decide

theorem run_of_start {b : UInt8} {d : Decoder} (h : start b = ([], d)) (bs : Octets) :
    ready.run (b :: bs) = d.run bs := by
  rw [run, step, h]
  rfl

/-- **What completes a character** that was begun: as many octets as are owed, each in its range,
and the character that they give. -/
inductive Completes : Decoder → Octets → Char → Prop
  | last {low high b : UInt8} {value : Nat} : low ≤ b → b ≤ high →
      Completes (inside 1 low high value) [b] (Char.ofNat (value * 64 + (b.toNat - 0x80)))
  | more {low high b : UInt8} {owed value : Nat} {bs : Octets} {c : Char} : low ≤ b → b ≤ high →
      Completes (inside (owed + 1) 0x80 0xBF (value * 64 + (b.toNat - 0x80))) bs c →
      Completes (inside (owed + 2) low high value) (b :: bs) c

/-- What completes a character is read as the character. -/
theorem Completes.run_append {d : Decoder} {bs : Octets} {c : Char} (h : d.Completes bs c)
    (rest : Octets) : d.run (bs ++ rest) = c :: ready.run rest := by
  induction h with
  | last hlow hhigh =>
      rw [List.singleton_append, run, step, if_pos ⟨hlow, hhigh⟩]
      rfl
  | more hlow hhigh _ ih =>
      rw [List.cons_append, run, step, if_pos ⟨hlow, hhigh⟩]
      simp only
      rw [if_neg (by omega)]
      exact ih

section

variable {owed value bits : Nat} {low high : UInt8} {bs : Octets} {c : Char}

/-- An octet with six bits lies in a range if its number does. -/
theorem mem_range_ofNat (hbits : bits < 64) (hlow : low.toNat ≤ bits + 128)
    (hhigh : bits + 128 ≤ high.toNat) :
    low ≤ UInt8.ofNat (bits + 128) ∧ UInt8.ofNat (bits + 128) ≤ high ∧
      (UInt8.ofNat (bits + 128)).toNat - 0x80 = bits := by
  have hoctet : (UInt8.ofNat (bits + 128)).toNat = bits + 128 := by
    rw [UInt8.toNat_ofNat']
    omega
  rw [UInt8.le_iff_toNat_le, UInt8.le_iff_toNat_le, hoctet]
  exact ⟨hlow, hhigh, by omega⟩

/-- **The last octet** of a character. -/
theorem completes_last (hbits : bits < 64) (hlow : low.toNat ≤ bits + 128)
    (hhigh : bits + 128 ≤ high.toNat) (hc : Char.ofNat (value * 64 + bits) = c) :
    (inside 1 low high value).Completes [UInt8.ofNat (bits + 128)] c := by
  obtain ⟨hle, hle', heq⟩ := mem_range_ofNat hbits hlow hhigh
  have hlast : (inside 1 low high value).Completes _ _ := .last hle hle'
  rwa [heq, hc] at hlast

/-- **An octet in the middle** of a character. -/
theorem completes_more (hbits : bits < 64) (hlow : low.toNat ≤ bits + 128)
    (hhigh : bits + 128 ≤ high.toNat)
    (h : (inside (owed + 1) 0x80 0xBF (value * 64 + bits)).Completes bs c) :
    (inside (owed + 2) low high value).Completes (UInt8.ofNat (bits + 128) :: bs) c := by
  obtain ⟨hle, hle', heq⟩ := mem_range_ofNat hbits hlow hhigh
  refine .more hle hle' ?_
  rwa [heq]

end

/-! ## Character by character -/

/-- **The form of a character** is an octet below 0x80, or an octet that begins a character and what
completes it. -/
theorem exists_completes (c : Char) :
    (∃ b < 0x80, String.utf8EncodeChar c = [b] ∧ ofOctet b = c) ∨
      ∃ b bs d, String.utf8EncodeChar c = b :: bs ∧ start b = ([], d) ∧ d.Completes bs c := by
  have hvalid : c.toNat < 0xD800 ∨ (0xDFFF < c.toNat ∧ c.toNat < 0x110000) := c.valid
  have hchar : ∀ n, n = c.toNat → Char.ofNat n = c := fun n hn => hn ▸ Char.ofNat_toNat c
  rcases Text.utf8EncodeChar_cases c with ⟨hc, hform⟩ | ⟨hc, hc', hform⟩ | ⟨hc, hc', hform⟩ |
      ⟨hc, hc', hform⟩
  · have hoctet : (UInt8.ofNat c.toNat).toNat = c.toNat := by
      rw [UInt8.toNat_ofNat']
      omega
    refine .inl ⟨UInt8.ofNat c.toNat, ?_, hform, hchar _ hoctet⟩
    rw [UInt8.lt_iff_toNat_lt, hoctet]
    exact hc
  · have hlead : c.toNat / 64 % 32 = c.toNat / 64 := by omega
    rw [hlead] at hform
    refine .inr ⟨_, _, _, hform, start_two _ (by omega) (by omega), ?_⟩
    exact completes_last (by omega) (by simp) (by simp; omega) (hchar _ (by omega))
  · have hlead : c.toNat / 4096 % 16 = c.toNat / 4096 := by omega
    rw [hlead] at hform
    refine .inr ⟨_, _, _, hform, start_three _ (by omega), ?_⟩
    refine completes_more (by omega) ?_ ?_
      (completes_last (by omega) (by simp) (by simp; omega) (hchar _ (by omega)))
    · split
      · simp only [UInt8.reduceToNat]
        omega
      · simp
    · split
      · simp only [UInt8.reduceToNat]
        omega
      · simp only [UInt8.reduceToNat]
        omega
  · have hlead : c.toNat / 262144 % 8 = c.toNat / 262144 := by omega
    rw [hlead] at hform
    refine .inr ⟨_, _, _, hform, start_four _ (by omega), ?_⟩
    refine completes_more (by omega) ?_ ?_ (completes_more (by omega) (by simp) (by simp; omega)
      (completes_last (by omega) (by simp) (by simp; omega) (hchar _ (by omega))))
    · split
      · simp only [UInt8.reduceToNat]
        omega
      · simp
    · split
      · simp only [UInt8.reduceToNat]
        omega
      · simp only [UInt8.reduceToNat]
        omega

/-- The form of a character is read as the character. -/
theorem run_utf8EncodeChar_append (c : Char) (bs : Octets) :
    ready.run (String.utf8EncodeChar c ++ bs) = c :: ready.run bs := by
  rcases exists_completes c with ⟨b, hb, hform, hc⟩ | ⟨b, rest, d, hform, hstart, hcompletes⟩
  · rw [hform, List.singleton_append, run, step, start_of_lt hb, hc]
    rfl
  · rw [hform, List.cons_append, run_of_start hstart, hcompletes.run_append]

end Decoder

namespace Text

/-- **A text is read back** from its UTF-8 form, whatever comes behind it. -/
theorem decode_encode_append (t : Text) (bs : Octets) :
    decode (encode t ++ bs) = t ++ decode bs := by
  simp only [decode_eq_run]
  induction t with
  | nil => rfl
  | cons c t ih =>
      rw [encode_cons, List.append_assoc, Decoder.run_utf8EncodeChar_append, ih]
      rfl

theorem decode_encode (t : Text) : decode (encode t) = t := by
  simpa [decode_nil] using decode_encode_append t []

theorem encode_inj {s t : Text} (h : encode s = encode t) : s = t := by
  rw [← decode_encode s, h, decode_encode]

/-- **What starts with the form of a text** and is the form of one goes on with the form of one. -/
theorem encode_append_eq_iff {s t : Text} {bs : Octets} :
    encode s ++ bs = encode t ↔ t = s ++ decode bs ∧ encode (decode bs) = bs := by
  constructor
  · intro h
    have ht : t = s ++ decode bs := by
      rw [← decode_encode_append, h, decode_encode]
    rw [ht, encode_append] at h
    exact ⟨ht, (List.append_cancel_left h).symm⟩
  · rintro ⟨rfl, hbs⟩
    rw [encode_append, hbs]

end Text

end ParallelShell
