import Mathlib.Algebra.Group.Nat.Defs
import ParallelShell.Text.Decode

set_option autoImplicit false

/-! # What octets decide about a decoded text

Octets below 0x80 stand for themselves, whatever is around them. An octet like that can be part of
no longer character, so it gives up the character that was begun (`step_of_lt`); and no other octet
ever leads to a character below 0x80 (`step_of_le`), because the numbers that a longer form can give
start at 0x80 and leave the surrogates out.

The second fact needs an invariant of the decoder, `Decoder.Sound`: whatever octets it accepts from
where it stands, the number they give is that of a character outside ASCII.

Two statements follow that the rest of the library uses. A text can be decoded in two parts that
meet at an octet below 0x80 (`decode_append_cons`), and the characters below 0x80 of a decoded text
are the octets below 0x80, in order (`filter_decode`).
-/

namespace ParallelShell

/-- The character that an octet below 0x80 stands for. -/
def ofOctet (b : UInt8) : Char := Char.ofNat b.toNat

def isAscii (c : Char) : Bool := c.toNat < 0x80

theorem toNat_ofNat {n : Nat} (h : n.isValidChar) : (Char.ofNat n).toNat = n := by
  rw [Char.ofNat, dif_pos h]
  rfl

theorem toNat_ofOctet {b : UInt8} (h : b < 0x80) : (ofOctet b).toNat = b.toNat := by
  have hb : b.toNat < 0x80 := UInt8.lt_iff_toNat_lt.mp h
  exact toNat_ofNat (Or.inl (by omega))

theorem ofOctet_inj {a b : UInt8} (ha : a < 0x80) (hb : b < 0x80) :
    ofOctet a = ofOctet b ↔ a = b := by
  constructor
  · intro h
    rw [← UInt8.toNat_inj, ← toNat_ofOctet ha, ← toNat_ofOctet hb, h]
  · rintro rfl
    rfl

theorem isAscii_ofOctet {b : UInt8} (h : b < 0x80) : isAscii (ofOctet b) = true := by
  have hb : b.toNat < 0x80 := UInt8.lt_iff_toNat_lt.mp h
  simp [isAscii, toNat_ofOctet h, hb]

namespace Decoder

/-- The numbers from `lo` on and below `hi` are those of characters outside ASCII. -/
def Scalars (lo hi : Nat) : Prop := 0x80 ≤ lo ∧ (hi ≤ 0xD800 ∨ (0xE000 ≤ lo ∧ hi ≤ 0x110000))

/-- **Every way to go on gives a character outside ASCII.** -/
def Sound : Decoder → Prop
  | ready => True
  | inside owed low high value =>
      0 < owed ∧ 0x80 ≤ low.toNat ∧
        Scalars ((value * 64 + (low.toNat - 0x80)) * 64 ^ (owed - 1))
          ((value * 64 + (high.toNat - 0x80) + 1) * 64 ^ (owed - 1))

theorem sound_ready : ready.Sound := trivial

theorem Scalars.mono {lo hi lo' hi' : Nat} (h : Scalars lo hi) (hlo : lo ≤ lo') (hhi : hi' ≤ hi) :
    Scalars lo' hi' := by
  obtain ⟨h₁, h₂⟩ := h
  unfold Scalars
  omega

theorem Scalars.not_isAscii {n : Nat} (h : Scalars n (n + 1)) :
    isAscii (Char.ofNat n) = false := by
  obtain ⟨h₁, h₂⟩ := h
  have hvalid : n.isValidChar := by
    unfold Nat.isValidChar
    omega
  simp [isAscii, toNat_ofNat hvalid, h₁]

theorem start_of_lt {b : UInt8} (h : b < 0x80) : start b = ([ofOctet b], ready) := by
  rw [start, if_pos h]
  rfl

/-- An octet from 0x80 on completes no character below 0x80, and none can come of it. -/
theorem start_of_le {b : UInt8} (h : ¬ b < 0x80) :
    (∀ c ∈ (start b).1, isAscii c = false) ∧ (start b).2.Sound := by
  have given_up : ∀ c ∈ [replacement], isAscii c = false :=
    List.forall_mem_singleton.mpr (by decide)
  have hb : b.toNat < 256 := b.toNat_lt
  simp only [start, UInt8.lt_iff_toNat_lt, ← UInt8.toNat_inj, UInt8.reduceToNat] at h ⊢
  rw [if_neg h]
  -- one case for each kind of first octet, in the order of the definition
  split
  · exact ⟨given_up, trivial⟩
  split
  · refine ⟨by simp, ?_⟩
    simp [Sound, Scalars]
    omega
  split
  · refine ⟨by simp, ?_⟩
    simp [Sound, Scalars]
  split
  · refine ⟨by simp, ?_⟩
    simp [Sound, Scalars]
  split
  · refine ⟨by simp, ?_⟩
    simp [Sound, Scalars]
    omega
  split
  · refine ⟨by simp, ?_⟩
    simp [Sound, Scalars]
  split
  · refine ⟨by simp, ?_⟩
    simp [Sound, Scalars]
    omega
  split
  · refine ⟨by simp, ?_⟩
    simp [Sound, Scalars]
  · exact ⟨given_up, trivial⟩

/-- **An octet below 0x80 stands for itself**, and gives up a character that was begun. -/
theorem step_of_lt {d : Decoder} (hd : d.Sound) {b : UInt8} (h : b < 0x80) :
    d.step b = (d.finish ++ [ofOctet b], ready) := by
  cases d with
  | ready => exact start_of_lt h
  | inside owed low high value =>
      have hlow : ¬ (low ≤ b ∧ b ≤ high) := by
        rintro ⟨hle, -⟩
        have := hd.2.1
        rw [UInt8.le_iff_toNat_le] at hle
        rw [UInt8.lt_iff_toNat_lt] at h
        simp only [UInt8.reduceToNat] at h
        omega
      rw [step, if_neg hlow, start_of_lt h]
      rfl

/-- **No other octet leads to a character below 0x80.** -/
theorem step_of_le {d : Decoder} (hd : d.Sound) {b : UInt8} (h : ¬ b < 0x80) :
    (∀ c ∈ (d.step b).1, isAscii c = false) ∧ (d.step b).2.Sound := by
  cases d with
  | ready => exact start_of_le h
  | inside owed low high value =>
      obtain ⟨howed, hlow, hscalars⟩ := hd
      rw [step]
      split
      · rename_i hin
        have hin : low.toNat ≤ b.toNat ∧ b.toNat ≤ high.toNat := by
          simpa only [UInt8.le_iff_toNat_le] using hin
        -- the octet narrows the numbers that can come of it
        have hnext : Scalars ((value * 64 + (b.toNat - 0x80)) * 64 ^ (owed - 1))
            ((value * 64 + (b.toNat - 0x80) + 1) * 64 ^ (owed - 1)) := by
          refine hscalars.mono (Nat.mul_le_mul_right _ ?_) (Nat.mul_le_mul_right _ ?_)
          · omega
          · omega
        simp only
        generalize value * 64 + (b.toNat - 0x80) = v at hnext ⊢
        split
        · rename_i hlast
          obtain rfl : owed = 1 := by omega
          refine ⟨?_, trivial⟩
          simpa using Scalars.not_isAscii (by simpa using hnext)
        · rename_i hmore
          obtain ⟨n, rfl⟩ : ∃ n, owed = n + 2 := ⟨owed - 2, by omega⟩
          refine ⟨by simp, by omega, by decide, ?_⟩
          have hpow : ∀ v, v * 64 ^ (n + 1) = v * 64 * 64 ^ n := fun v => by
            rw [Nat.pow_succ, Nat.mul_comm (64 ^ n), Nat.mul_assoc]
          have hbound : (v + 1) * 64 = v * 64 + 63 + 1 := by omega
          rw [show n + 2 - 1 = n + 1 from rfl, hpow, hpow, hbound] at hnext
          simpa only [UInt8.reduceToNat, Nat.sub_self, Nat.add_zero, Nat.reduceSub,
            show n + 2 - 1 - 1 = n from rfl] using hnext
      · obtain ⟨hstart, hsound⟩ := start_of_le h
        refine ⟨?_, hsound⟩
        intro c hc
        rcases List.mem_cons.mp hc with rfl | hc
        · decide
        · exact hstart c hc

/-- A decoder reads octets in two parts that meet at an octet below 0x80. -/
theorem run_append_cons {d : Decoder} (hd : d.Sound) (xs : Octets) {b : UInt8} (h : b < 0x80)
    (ys : Octets) : d.run (xs ++ b :: ys) = d.run xs ++ ofOctet b :: ready.run ys := by
  induction xs generalizing d with
  | nil => simp [run, step_of_lt hd h]
  | cons x xs ih =>
      have hsound : (d.step x).2.Sound := by
        by_cases hx : x < 0x80
        · rw [step_of_lt hd hx]
          trivial
        · exact (step_of_le hd hx).2
      rw [List.cons_append, run, run, ih hsound, List.append_assoc]

theorem filter_run {d : Decoder} (hd : d.Sound) (bs : Octets) :
    (d.run bs).filter isAscii = (bs.filter (· < 0x80)).map ofOctet := by
  have hfinish : ∀ d : Decoder, d.finish.filter isAscii = [] := by
    intro d
    cases d with
    | ready => rfl
    | inside owed low high value => rfl
  induction bs generalizing d with
  | nil => exact hfinish d
  | cons b bs ih =>
      rw [run, List.filter_append]
      by_cases hb : b < 0x80
      · rw [step_of_lt hd hb, ih sound_ready, List.filter_append, hfinish]
        simp [isAscii_ofOctet hb, hb]
      · obtain ⟨hout, hsound⟩ := step_of_le hd hb
        have hnone : (d.step b).1.filter isAscii = [] := by
          rw [List.filter_eq_nil_iff]
          intro c hc
          simp [hout c hc]
        rw [hnone, ih hsound, List.filter_cons_of_neg (by simpa using hb)]
        rfl

/-- A character that was begun leads to another or is given up. -/
theorem run_inside_ne_nil (owed : Nat) (low high : UInt8) (value : Nat) (bs : Octets) :
    (inside owed low high value).run bs ≠ [] := by
  induction bs generalizing owed low high value with
  | nil => simp [run, finish]
  | cons b bs ih =>
      rw [run, step]
      split
      · simp only
        split
        · simp
        · exact ih _ _ _ _
      · simp

end Decoder

namespace Text

theorem decode_nil : decode [] = [] := rfl

/-- **A text is decoded in two parts** that meet at an octet below 0x80. -/
theorem decode_append_cons (xs : Octets) {b : UInt8} (h : b < 0x80) (ys : Octets) :
    decode (xs ++ b :: ys) = decode xs ++ ofOctet b :: decode ys := by
  simp only [decode_eq_run]
  exact Decoder.run_append_cons Decoder.sound_ready xs h ys

theorem decode_cons {b : UInt8} (h : b < 0x80) (bs : Octets) :
    decode (b :: bs) = ofOctet b :: decode bs := by
  simpa [decode_nil] using decode_append_cons [] h bs

/-- Two parts also meet where the second starts with an octet below 0x80, or is empty. -/
theorem decode_append {xs ys : Octets} (h : ∀ b ∈ ys.head?, b < 0x80) :
    decode (xs ++ ys) = decode xs ++ decode ys := by
  cases ys with
  | nil => simp [decode_nil]
  | cons b ys =>
      have hb : b < 0x80 := h b rfl
      rw [decode_append_cons xs hb, decode_cons hb]

/-- **The characters below 0x80** of a text are the octets below 0x80 that it is decoded from, in
order. -/
theorem filter_decode (bs : Octets) :
    (decode bs).filter isAscii = (bs.filter (· < 0x80)).map ofOctet := by
  rw [decode_eq_run]
  exact Decoder.filter_run Decoder.sound_ready bs

/-- A character below 0x80 comes from its octet. -/
theorem exists_octet_of_mem_decode {c : Char} {bs : Octets} (hc : isAscii c = true)
    (h : c ∈ decode bs) : ∃ b ∈ bs, b < 0x80 ∧ ofOctet b = c := by
  have hm : c ∈ (decode bs).filter isAscii := List.mem_filter.mpr ⟨h, hc⟩
  rw [filter_decode] at hm
  obtain ⟨b, hb, rfl⟩ := List.mem_map.mp hm
  rw [List.mem_filter] at hb
  exact ⟨b, hb.1, by simpa using hb.2, rfl⟩

theorem ofOctet_mem_decode_iff {b : UInt8} (hb : b < 0x80) (bs : Octets) :
    ofOctet b ∈ decode bs ↔ b ∈ bs := by
  constructor
  · intro h
    obtain ⟨a, ha, hlt, heq⟩ := exists_octet_of_mem_decode (isAscii_ofOctet hb) h
    rwa [← (ofOctet_inj hlt hb).mp heq]
  · intro h
    obtain ⟨xs, ys, rfl⟩ := List.append_of_mem h
    simp [decode_append_cons xs hb]

/-- Only no octets at all stand for nothing. -/
theorem decode_eq_nil_iff (bs : Octets) : decode bs = [] ↔ bs = [] := by
  cases bs with
  | nil => simp [decode_nil]
  | cons b bs =>
      rw [decode_eq_run, Decoder.run, Decoder.step, Decoder.start]
      repeat' split
      all_goals simp [Decoder.run_inside_ne_nil]

/-- A single character below 0x80 comes from its octet alone. -/
theorem decode_eq_singleton_iff {b : UInt8} (hb : b < 0x80) (bs : Octets) :
    decode bs = [ofOctet b] ↔ bs = [b] := by
  constructor
  · intro h
    have hm : b ∈ bs := (ofOctet_mem_decode_iff hb bs).mp (by simp [h])
    obtain ⟨xs, ys, rfl⟩ := List.append_of_mem hm
    rw [decode_append_cons xs hb] at h
    have hlength := congrArg List.length h
    simp only [List.length_append, List.length_cons, List.length_nil] at hlength
    have hxs : xs = [] := (decode_eq_nil_iff xs).mp (List.length_eq_zero_iff.mp (by omega))
    have hys : ys = [] := (decode_eq_nil_iff ys).mp (List.length_eq_zero_iff.mp (by omega))
    rw [hxs, hys, List.nil_append]
  · rintro rfl
    rw [decode_cons hb, decode_nil]

end Text

end ParallelShell
