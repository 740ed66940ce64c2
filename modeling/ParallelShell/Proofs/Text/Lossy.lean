import Mathlib.Data.List.Induction
import ParallelShell.Proofs.Text.Encode

set_option autoImplicit false

/-! # Decoding octets that are no text

Octets that are the form of no text are decoded as well. Wherever the form of a character stands,
the character is read. Where none does, the longest part that could have become a character is
given up, or a single octet if nothing could, and read as one U+FFFD. `Text.Lossy` is this rule,
in terms of the forms of characters alone, and the main statement is that it is what decoding does
(`Text.lossy_iff`).

A decoder does not look ahead. It knows how many octets it is owed and in which range the next one
has to lie. That this is enough is the content of `Decoder.Begins`: what completes the character a
decoder stands in is exactly what completes a form that starts with the octets it has read.
-/

namespace ParallelShell

namespace Text

/-- **Octets that could become a character**: the front of its form, but not all of it. -/
def IsBegun (front : Octets) : Prop :=
  front ≠ [] ∧ ∃ c more, more ≠ [] ∧ String.utf8EncodeChar c = front ++ more

/-- **A maximal invalid part** in front of other octets. -/
structure IsInvalid (part rest : Octets) : Prop where
  /-- No character stands here. -/
  no_char : ∀ c more, String.utf8EncodeChar c ++ more ≠ part ++ rest
  /-- The part is a single octet, or could have become a character. -/
  begun : (∃ b, part = [b]) ∨ IsBegun part
  /-- No longer part could. -/
  maximal : ∀ more rest', more ≠ [] → more ++ rest' = rest → ¬ IsBegun (part ++ more)

/-- **Lossy decoding**: characters stand for themselves, and every maximal invalid part for one
U+FFFD. -/
inductive Lossy : Octets → Text → Prop
  | nil : Lossy [] []
  | char {c : Char} {bs : Octets} {t : Text} :
      Lossy bs t → Lossy (String.utf8EncodeChar c ++ bs) (c :: t)
  | invalid {part bs : Octets} {t : Text} :
      IsInvalid part bs → Lossy bs t → Lossy (part ++ bs) (replacement :: t)

end Text

namespace Decoder

variable {front : Octets} {owed value : Nat} {low high b : UInt8}

/-! ## The first octet -/

/-- **The kinds of first octets.** -/
theorem start_cases (b : UInt8) :
    b < 0x80 ∨ (∃ lead < 32, 2 ≤ lead ∧ b = UInt8.ofNat (lead + 192)) ∨
      (∃ lead < 16, b = UInt8.ofNat (lead + 224)) ∨ (∃ lead < 5, b = UInt8.ofNat (lead + 240)) ∨
      start b = ([replacement], ready) := by
  have hb : b.toNat < 256 := b.toNat_lt
  have hof : ∀ n, n = b.toNat → b = UInt8.ofNat n := by
    rintro n rfl
    exact (UInt8.ofNat_toNat).symm
  -- the bounds of the kinds, from the lowest octet to the highest
  by_cases h₁ : b.toNat < 128
  · left
    rw [UInt8.lt_iff_toNat_lt]
    simpa using h₁
  by_cases h₂ : 194 ≤ b.toNat ∧ b.toNat < 224
  · exact .inr (.inl ⟨b.toNat - 192, by omega, by omega, hof _ (by omega)⟩)
  by_cases h₃ : 224 ≤ b.toNat ∧ b.toNat < 240
  · exact .inr (.inr (.inl ⟨b.toNat - 224, by omega, hof _ (by omega)⟩))
  by_cases h₄ : 240 ≤ b.toNat ∧ b.toNat < 245
  · exact .inr (.inr (.inr (.inl ⟨b.toNat - 240, by omega, hof _ (by omega)⟩)))
  · refine .inr (.inr (.inr (.inr ?_)))
    simp only [start, UInt8.lt_iff_toNat_lt, ← UInt8.toNat_inj, UInt8.reduceToNat]
    rw [if_neg h₁]
    by_cases h₅ : b.toNat < 194
    · rw [if_pos h₅]
    · -- the octets from 0xF5 on are none of those that are asked for
      repeat rw [if_neg (by omega)]

/-- A first octet is a character, or is given up, or begins a character. -/
theorem start_eq (b : UInt8) :
    b < 0x80 ∨ start b = ([replacement], ready) ∨
      ∃ owed low high value, low ≤ high ∧ start b = ([], inside (owed + 1) low high value) := by
  have hthree : ∀ lead < 16, (if lead = 0 then 0xA0 else 0x80 : UInt8) ≤
      if lead = 13 then 0x9F else 0xBF := by decide
  have hfour : ∀ lead < 5, (if lead = 0 then 0x90 else 0x80 : UInt8) ≤
      if lead = 4 then 0x8F else 0xBF := by decide
  rcases start_cases b with hb | ⟨lead, hlead, hlead', rfl⟩ | ⟨lead, hlead, rfl⟩ |
      ⟨lead, hlead, rfl⟩ | hb
  · exact .inl hb
  · exact .inr (.inr ⟨_, _, _, _, by decide, start_two lead hlead hlead'⟩)
  · exact .inr (.inr ⟨_, _, _, _, hthree lead hlead, start_three lead hlead⟩)
  · exact .inr (.inr ⟨_, _, _, _, hfour lead hlead, start_four lead hlead⟩)
  · exact .inr (.inl hb)

/-! ## The form of a number -/

theorem utf8EncodeChar_ofOctet (hb : b < 0x80) : String.utf8EncodeChar (ofOctet b) = [b] := by
  have hvalue : (ofOctet b).val.toNat = b.toNat := toNat_ofOctet hb
  rw [UInt8.lt_iff_toNat_lt] at hb
  simp only [UInt8.reduceToNat] at hb
  simp only [String.utf8EncodeChar, hvalue]
  rw [if_pos (by omega), UInt8.ofNat_toNat]

theorem utf8EncodeChar_two {lead x : Nat} (hlead : 2 ≤ lead) (hlead' : lead < 32) (hx : x < 64) :
    String.utf8EncodeChar (Char.ofNat (lead * 64 + x)) =
      [UInt8.ofNat (lead + 192), UInt8.ofNat (x + 128)] := by
  have hvalue : (Char.ofNat (lead * 64 + x)).val.toNat = lead * 64 + x :=
    toNat_ofNat (Or.inl (by omega))
  have h₁ : (lead * 64 + x) / 64 % 32 = lead := by omega
  have h₂ : (lead * 64 + x) % 64 = x := by omega
  simp only [String.utf8EncodeChar, hvalue]
  rw [if_neg (by omega), if_pos (by omega), h₁, h₂]

theorem utf8EncodeChar_three {lead x y : Nat} (hlead : lead < 16) (hx : x < 64) (hy : y < 64)
    (hlow : lead = 0 → 32 ≤ x) (hhigh : lead = 13 → x < 32) :
    String.utf8EncodeChar (Char.ofNat ((lead * 64 + x) * 64 + y)) =
      [UInt8.ofNat (lead + 224), UInt8.ofNat (x + 128), UInt8.ofNat (y + 128)] := by
  have hvalid : ((lead * 64 + x) * 64 + y).isValidChar := by
    unfold Nat.isValidChar
    omega
  have hvalue : (Char.ofNat ((lead * 64 + x) * 64 + y)).val.toNat = (lead * 64 + x) * 64 + y :=
    toNat_ofNat hvalid
  have h₁ : ((lead * 64 + x) * 64 + y) / 4096 % 16 = lead := by omega
  have h₂ : ((lead * 64 + x) * 64 + y) / 64 % 64 = x := by omega
  have h₃ : ((lead * 64 + x) * 64 + y) % 64 = y := by omega
  simp only [String.utf8EncodeChar, hvalue]
  rw [if_neg (by omega), if_neg (by omega), if_pos (by omega), h₁, h₂, h₃]

theorem utf8EncodeChar_four {lead x y z : Nat} (hlead : lead < 5) (hx : x < 64) (hy : y < 64)
    (hz : z < 64) (hlow : lead = 0 → 16 ≤ x) (hhigh : lead = 4 → x < 16) :
    String.utf8EncodeChar (Char.ofNat (((lead * 64 + x) * 64 + y) * 64 + z)) =
      [UInt8.ofNat (lead + 240), UInt8.ofNat (x + 128), UInt8.ofNat (y + 128),
        UInt8.ofNat (z + 128)] := by
  have hvalid : (((lead * 64 + x) * 64 + y) * 64 + z).isValidChar := by
    unfold Nat.isValidChar
    omega
  have hvalue : (Char.ofNat (((lead * 64 + x) * 64 + y) * 64 + z)).val.toNat =
      ((lead * 64 + x) * 64 + y) * 64 + z := toNat_ofNat hvalid
  have h₁ : (((lead * 64 + x) * 64 + y) * 64 + z) / 262144 % 8 = lead := by omega
  have h₂ : (((lead * 64 + x) * 64 + y) * 64 + z) / 4096 % 64 = x := by omega
  have h₃ : (((lead * 64 + x) * 64 + y) * 64 + z) / 64 % 64 = y := by omega
  have h₄ : (((lead * 64 + x) * 64 + y) * 64 + z) % 64 = z := by omega
  simp only [String.utf8EncodeChar, hvalue]
  rw [if_neg (by omega), if_neg (by omega), if_neg (by omega), h₁, h₂, h₃, h₄]

/-- An octet in a range that is no wider than six bits. -/
theorem exists_bits (hlow : 0x80 ≤ low.toNat) (hhigh : high.toNat ≤ 0xBF) (hle : low ≤ b)
    (hle' : b ≤ high) : ∃ x < 64, b = UInt8.ofNat (x + 128) ∧ b.toNat - 0x80 = x ∧
      low.toNat ≤ x + 128 ∧ x + 128 ≤ high.toNat := by
  rw [UInt8.le_iff_toNat_le] at hle hle'
  have heq : b.toNat - 0x80 + 128 = b.toNat := by omega
  refine ⟨b.toNat - 0x80, by omega, ?_, rfl, by omega, by omega⟩
  rw [heq, UInt8.ofNat_toNat]

/-- What the last octet adds. -/
theorem Completes.exists_last {bs : Octets} {c : Char}
    (h : (inside 1 low high value).Completes bs c)
    (hlow : 0x80 ≤ low.toNat) (hhigh : high.toNat ≤ 0xBF) :
    ∃ x < 64, bs = [UInt8.ofNat (x + 128)] ∧ c = Char.ofNat (value * 64 + x) ∧
      low.toNat ≤ x + 128 ∧ x + 128 ≤ high.toNat := by
  cases h with
  | last hle hle' =>
      obtain ⟨x, hx, hb, heq, hbounds⟩ := exists_bits hlow hhigh hle hle'
      rw [heq]
      exact ⟨x, hx, by rw [hb], rfl, hbounds⟩

/-- What an octet in the middle adds. -/
theorem Completes.exists_more {bs : Octets} {c : Char}
    (h : (inside (owed + 2) low high value).Completes bs c)
    (hlow : 0x80 ≤ low.toNat) (hhigh : high.toNat ≤ 0xBF) :
    ∃ x < 64, ∃ rest, bs = UInt8.ofNat (x + 128) :: rest ∧
      (inside (owed + 1) 0x80 0xBF (value * 64 + x)).Completes rest c ∧
      low.toNat ≤ x + 128 ∧ x + 128 ≤ high.toNat := by
  cases h with
  | @more _ _ _ _ _ rest _ hle hle' hrest =>
      obtain ⟨x, hx, hb, heq, hbounds⟩ := exists_bits hlow hhigh hle hle'
      rw [heq] at hrest
      exact ⟨x, hx, rest, by rw [hb], hrest, hbounds⟩

/-- **What completes a character gives its form.** -/
theorem utf8EncodeChar_of_completes {d : Decoder} {bs : Octets} {c : Char}
    (hstart : start b = ([], d)) (h : d.Completes bs c) :
    String.utf8EncodeChar c = b :: bs := by
  rcases start_cases b with hb | ⟨lead, hlead, hlead', rfl⟩ | ⟨lead, hlead, rfl⟩ |
      ⟨lead, hlead, rfl⟩ | hb
  · rw [start_of_lt hb] at hstart
    cases hstart
  · rw [start_two lead hlead hlead'] at hstart
    obtain ⟨-, rfl⟩ := Prod.mk.inj hstart
    obtain ⟨x, hx, rfl, rfl, -⟩ := h.exists_last (by decide) (by decide)
    exact utf8EncodeChar_two hlead' hlead hx
  · rw [start_three lead hlead] at hstart
    obtain ⟨-, rfl⟩ := Prod.mk.inj hstart
    obtain ⟨x, hx, rest, rfl, h, hlow, hhigh⟩ :=
      h.exists_more (by split <;> decide) (by split <;> decide)
    obtain ⟨y, hy, rfl, rfl, -⟩ := h.exists_last (by decide) (by decide)
    -- the first range leaves out what has a shorter form, and the surrogates
    refine utf8EncodeChar_three hlead hx hy ?_ ?_
    · rintro rfl
      simp only [if_true, UInt8.reduceToNat] at hlow
      omega
    · rintro rfl
      simp only [if_true, UInt8.reduceToNat] at hhigh
      omega
  · rw [start_four lead hlead] at hstart
    obtain ⟨-, rfl⟩ := Prod.mk.inj hstart
    obtain ⟨x, hx, rest, rfl, h, hlow, hhigh⟩ :=
      h.exists_more (by split <;> decide) (by split <;> decide)
    obtain ⟨y, hy, rest, rfl, h, -⟩ := h.exists_more (by decide) (by decide)
    obtain ⟨z, hz, rfl, rfl, -⟩ := h.exists_last (by decide) (by decide)
    -- the first range leaves out what has a shorter form, and what is no character
    refine utf8EncodeChar_four hlead hx hy hz ?_ ?_
    · rintro rfl
      simp only [if_true, UInt8.reduceToNat] at hlow
      omega
    · rintro rfl
      simp only [if_true, UInt8.reduceToNat] at hhigh
      omega
  · rw [hb] at hstart
    cases hstart

/-! ## Characters that have begun -/

/-- **A decoder that has read the front of a character**: it gives nothing for it yet, and awaits
what completes a form that starts with it. -/
structure Begins (front : Octets) (owed : Nat) (low high : UInt8) (value : Nat) : Prop where
  low_le_high : low ≤ high
  run_append : ∀ bs, ready.run (front ++ bs) = (inside (owed + 1) low high value).run bs
  completes_iff : ∀ bs c, (inside (owed + 1) low high value).Completes bs c ↔
    String.utf8EncodeChar c = front ++ bs

/-- A character that has begun can be completed. -/
theorem exists_completes_inside (h : low ≤ high) (owed value : Nat) :
    ∃ bs c, bs ≠ [] ∧ (inside (owed + 1) low high value).Completes bs c := by
  induction owed generalizing low high value with
  | zero => exact ⟨[low], _, by simp, .last (UInt8.le_refl low) h⟩
  | succ owed ih =>
      have hrange : (0x80 : UInt8) ≤ 0xBF := by decide
      obtain ⟨bs, c, -, hcompletes⟩ := ih hrange (value * 64 + (low.toNat - 0x80))
      exact ⟨low :: bs, c, by simp, .more (UInt8.le_refl low) h hcompletes⟩

theorem Begins.ne_nil (h : Begins front owed low high value) : front ≠ [] := by
  rintro rfl
  -- without octets nothing is given up at the end
  have hrun := h.run_append []
  simp [run, finish] at hrun

theorem Begins.isBegun (h : Begins front owed low high value) : Text.IsBegun front := by
  obtain ⟨bs, c, hne, hcompletes⟩ := exists_completes_inside h.low_le_high owed value
  exact ⟨h.ne_nil, c, bs, hne, (h.completes_iff bs c).mp hcompletes⟩

/-- **One octet more.** -/
theorem Begins.append (h : Begins front (owed + 1) low high value) (hlow : low ≤ b)
    (hhigh : b ≤ high) :
    Begins (front ++ [b]) owed 0x80 0xBF (value * 64 + (b.toNat - 0x80)) where
  low_le_high := by decide
  run_append := by
    intro bs
    rw [List.append_assoc, h.run_append, List.singleton_append, run, step, if_pos ⟨hlow, hhigh⟩]
    simp only
    rw [if_neg (by omega)]
    rfl
  completes_iff := by
    intro bs c
    rw [List.append_assoc, List.singleton_append, ← h.completes_iff]
    constructor
    · exact .more hlow hhigh
    · intro hcompletes
      cases hcompletes with
      | more _ _ hrest => exact hrest

/-- **The first octet** of a character of several. -/
theorem exists_begins_of_start {d : Decoder} (h : start b = ([], d)) :
    ∃ owed low high value, Begins [b] owed low high value := by
  have hcompletes : ∀ bs c, d.Completes bs c ↔ String.utf8EncodeChar c = [b] ++ bs := by
    intro bs c
    constructor
    · exact utf8EncodeChar_of_completes h
    · intro hform
      -- the octet tells which decoder a form that starts with it goes through
      rcases exists_completes c with ⟨a, ha, hform', -⟩ | ⟨a, as, e, hform', hstart, hcompletes⟩
      · rw [hform', List.singleton_append] at hform
        obtain ⟨rfl, -⟩ := List.cons.inj hform
        rw [start_of_lt ha] at h
        cases h
      · rw [hform', List.singleton_append] at hform
        obtain ⟨rfl, rfl⟩ := List.cons.inj hform
        rw [h] at hstart
        obtain ⟨-, rfl⟩ := Prod.mk.inj hstart
        exact hcompletes
  rcases start_eq b with hb | hb | ⟨owed, low, high, value, hle, hb⟩
  · rw [start_of_lt hb] at h
    cases h
  · rw [hb] at h
    cases h
  · rw [hb] at h
    obtain ⟨-, rfl⟩ := Prod.mk.inj h
    exact ⟨owed, low, high, value, hle, run_of_start hb, hcompletes⟩

/-- **Whatever could become a character has begun one.** -/
theorem exists_begins (h : Text.IsBegun front) :
    ∃ owed low high value, Begins front owed low high value := by
  obtain ⟨hne, c, more, hmore, hform⟩ := h
  -- by induction from the back: the octets before the last one have begun the same character
  induction front using List.reverseRecOn generalizing more with
  | nil => exact absurd rfl hne
  | append_singleton front b ih =>
      rw [List.append_assoc, List.singleton_append] at hform
      by_cases hfront : front = []
      · rw [hfront, List.nil_append] at hform ⊢
        rcases exists_completes c with ⟨a, -, hform', -⟩ | ⟨a, as, d, hform', hstart, -⟩
        · rw [hform'] at hform
          exact absurd (List.cons.inj hform).2.symm hmore
        · rw [hform'] at hform
          obtain ⟨rfl, -⟩ := List.cons.inj hform
          exact exists_begins_of_start hstart
      · obtain ⟨owed, low, high, value, hbegins⟩ :=
          ih hfront (b :: more) (List.cons_ne_nil _ _) hform
        have hcompletes := (hbegins.completes_iff _ _).mpr hform
        cases hcompletes with
        | last => exact absurd rfl hmore
        | more hlow hhigh => exact ⟨_, _, _, _, hbegins.append hlow hhigh⟩

/-! ## Giving up -/

/-- An octet that does not go on with a character gives it up, and is read from the start. -/
theorem run_inside_of_not_mem (h : ¬ (low ≤ b ∧ b ≤ high)) (bs : Octets) :
    (inside owed low high value).run (b :: bs) = replacement :: ready.run (b :: bs) := by
  rw [run, step, if_neg h]
  rfl

/-- **A maximal invalid part** is read as one U+FFFD, and what comes behind it from the start. -/
theorem run_append_of_isInvalid {part rest : Octets} (h : Text.IsInvalid part rest) :
    ready.run (part ++ rest) = replacement :: ready.run rest := by
  by_cases hbegun : Text.IsBegun part
  · obtain ⟨owed, low, high, value, hbegins⟩ := exists_begins hbegun
    rw [hbegins.run_append]
    cases rest with
    | nil => rfl
    | cons b rest =>
        apply run_inside_of_not_mem
        -- an octet in the range would make a character of the part, or a longer part
        rintro ⟨hlow, hhigh⟩
        cases owed with
        | zero =>
            have hform := (hbegins.completes_iff _ _).mp (.last hlow hhigh)
            apply h.no_char _ rest
            rw [hform, List.append_assoc, List.singleton_append]
        | succ owed =>
            exact h.maximal [b] rest (by simp) rfl (hbegins.append hlow hhigh).isBegun
  · -- a single octet is given up at once, since neither of the other kinds of octets is left
    obtain ⟨b, rfl⟩ := h.begun.resolve_right hbegun
    have hstart : start b = ([replacement], ready) := by
      rcases start_eq b with hb | hb | ⟨owed, low, high, value, -, hb⟩
      · refine absurd ?_ (h.no_char (ofOctet b) rest)
        rw [utf8EncodeChar_ofOctet hb]
      · exact hb
      · obtain ⟨_, _, _, _, hbegins⟩ := exists_begins_of_start hb
        exact absurd hbegins.isBegun hbegun
    rw [List.singleton_append, run, step, hstart]
    rfl

end Decoder

namespace Text

/-! ## Every sequence of octets -/

/-- A part that has some property can be made as long as possible. -/
theorem exists_longest {P : Octets → Prop} {part : Octets} (h : P part) (rest : Octets) :
    ∃ more back, more ++ back = rest ∧ P (part ++ more) ∧
      ∀ next back', next ≠ [] → next ++ back' = back → ¬ P (part ++ more ++ next) := by
  induction hn : rest.length using Nat.strongRecOn generalizing part rest with
  | ind n ih =>
      by_cases hmaximal : ∀ next back', next ≠ [] → next ++ back' = rest → ¬ P (part ++ next)
      · refine ⟨[], rest, rfl, ?_, ?_⟩
        · rwa [List.append_nil]
        · rwa [List.append_nil]
      · push Not at hmaximal
        obtain ⟨next, rest', hnext, rfl, hlonger⟩ := hmaximal
        have hlt : rest'.length < n := by
          have hpos := List.length_pos_iff.mpr hnext
          rw [← hn, List.length_append]
          omega
        obtain ⟨more, back, rfl, hmore, hlongest⟩ := ih _ hlt hlonger rest' rfl
        rw [List.append_assoc] at hmore hlongest
        exact ⟨next ++ more, back, List.append_assoc _ _ _, hmore, hlongest⟩

/-- A maximal invalid part stands wherever no character does. -/
theorem exists_isInvalid {bs : Octets} (hne : bs ≠ [])
    (hchar : ∀ c more, String.utf8EncodeChar c ++ more ≠ bs) :
    ∃ part rest, part ≠ [] ∧ part ++ rest = bs ∧ IsInvalid part rest := by
  obtain ⟨b, rest, rfl⟩ := List.exists_cons_of_ne_nil hne
  have hsingle : (∃ a, [b] = [a]) ∨ IsBegun [b] := .inl ⟨b, rfl⟩
  obtain ⟨more, back, rfl, hbegun, hlongest⟩ :=
    exists_longest (P := fun part => (∃ a, part = [a]) ∨ IsBegun part) hsingle rest
  refine ⟨[b] ++ more, back, by simp, by simp, hchar, hbegun, ?_⟩
  intro next back' hnext hback hlonger
  exact hlongest next back' hnext hback (.inr hlonger)

/-- Every sequence of octets has a lossy reading. -/
theorem exists_lossy (bs : Octets) : ∃ t, Lossy bs t := by
  induction hn : bs.length using Nat.strongRecOn generalizing bs with
  | ind n ih =>
      by_cases hne : bs = []
      · exact ⟨[], hne ▸ .nil⟩
      have shorter : ∀ {front rest : Octets}, front ≠ [] → front ++ rest = bs →
          ∃ t, Lossy rest t := by
        intro front rest hfront hsplit
        have hpos := List.length_pos_iff.mpr hfront
        have hlt : rest.length < n := by
          rw [← hn, ← hsplit, List.length_append]
          omega
        exact ih _ hlt rest rfl
      by_cases hchar : ∃ c rest, String.utf8EncodeChar c ++ rest = bs
      · obtain ⟨c, rest, hsplit⟩ := hchar
        obtain ⟨t, ht⟩ := shorter String.utf8EncodeChar_ne_nil hsplit
        exact ⟨c :: t, hsplit ▸ .char ht⟩
      · push Not at hchar
        obtain ⟨part, rest, hpart, hsplit, hinvalid⟩ := exists_isInvalid hne hchar
        obtain ⟨t, ht⟩ := shorter hpart hsplit
        exact ⟨replacement :: t, hsplit ▸ .invalid hinvalid ht⟩

theorem Lossy.decode_eq {bs : Octets} {t : Text} (h : Lossy bs t) : decode bs = t := by
  rw [decode_eq_run]
  induction h with
  | nil => rfl
  | char _ ih => rw [Decoder.run_utf8EncodeChar_append, ih]
  | invalid hinvalid _ ih => rw [Decoder.run_append_of_isInvalid hinvalid, ih]

/-- **Decoding is lossy decoding**, of any octets. -/
theorem lossy_iff {bs : Octets} {t : Text} : Lossy bs t ↔ decode bs = t := by
  constructor
  · exact Lossy.decode_eq
  · rintro rfl
    obtain ⟨t, ht⟩ := exists_lossy bs
    rwa [ht.decode_eq]

/-- Where nothing is replaced, nothing is lost. -/
theorem Lossy.encode_eq {bs : Octets} {t : Text} (h : Lossy bs t) (ht : replacement ∉ t) :
    encode t = bs := by
  induction h with
  | nil => rfl
  | char _ ih => rw [encode_cons, ih fun hmem => ht (List.mem_cons_of_mem _ hmem)]
  | invalid _ _ _ => exact absurd List.mem_cons_self ht

theorem replacement_mem_decode {bs : Octets} (h : ofOctets? bs = none) :
    replacement ∈ decode bs := by
  by_contra hmem
  rw [ofOctets?, if_pos ((lossy_iff.mpr rfl).encode_eq hmem)] at h
  cases h

end Text

end ParallelShell
