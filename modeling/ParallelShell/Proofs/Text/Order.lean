import Mathlib.Data.List.Basic
import ParallelShell.Text.Basic

set_option autoImplicit false

/-! # The order of texts

Texts are ordered character by character, and characters by their numbers. It is a total order
(`Text.le_trans`, `Text.le_total`, `Text.le_antisymm`), so texts that are sorted and of which each
is there once are determined by which texts they are (`Text.sorted_eraseDups_congr`).

It is also the order of the octets that texts are encoded to (`Text.encode_lt_iff`). The form of a
character is made of the digits of its number to the base 64, the first of them with a mark for
how many there are, and the marks increase with the numbers. So the first octet in which two forms
differ decides about their numbers, whatever comes behind it (`Text.utf8EncodeChar_append_lt`).
-/

namespace ParallelShell

namespace Text

/-! ## A total order -/

theorem le_cons_iff (a b : Char) (s t : Text) :
    le (a :: s) (b :: t) = true ↔
      a.toNat < b.toNat ∨ a.toNat = b.toNat ∧ le s t = true := by
  rw [Char.toNat_inj, Char.toNat, Char.toNat, ← UInt32.lt_iff_toNat_lt]
  simp [le]

theorem le_trans {s t u : Text} (h : le s t = true) (h' : le t u = true) : le s u = true := by
  induction s generalizing t u with
  | nil => rfl
  | cons a s ih =>
      cases t with
      | nil => cases h
      | cons b t =>
          cases u with
          | nil => cases h'
          | cons c u =>
              rw [le_cons_iff] at h h' ⊢
              rcases h with h | ⟨h, hst⟩
              · exact Or.inl (by omega)
              · rcases h' with h' | ⟨h', htu⟩
                · exact Or.inl (by omega)
                · exact Or.inr ⟨h.trans h', ih hst htu⟩

theorem le_total (s t : Text) : le s t = true ∨ le t s = true := by
  induction s generalizing t with
  | nil => exact Or.inl rfl
  | cons a s ih =>
      cases t with
      | nil => exact Or.inr rfl
      | cons b t =>
          rw [le_cons_iff, le_cons_iff]
          rcases Nat.lt_trichotomy a.toNat b.toNat with hab | hab | hab
          · exact Or.inl (Or.inl hab)
          · exact (ih t).imp (fun h => Or.inr ⟨hab, h⟩) (fun h => Or.inr ⟨hab.symm, h⟩)
          · exact Or.inr (Or.inl hab)

theorem le_antisymm {s t : Text} (h : le s t = true) (h' : le t s = true) : s = t := by
  induction s generalizing t with
  | nil =>
      cases t with
      | nil => rfl
      | cons b t => cases h'
  | cons a s ih =>
      cases t with
      | nil => cases h
      | cons b t =>
          rw [le_cons_iff] at h h'
          rcases h with h | ⟨hab, hst⟩
          · omega
          · rcases h' with h' | ⟨-, hts⟩
            · omega
            · rw [Char.toNat_inj.mp hab, ih hst hts]

/-! ## Sorted texts -/

/-- Sorting by texts puts them in order. -/
theorem pairwise_mergeSort_le {α : Type} (f : α → Text) (xs : List α) :
    (xs.mergeSort fun x y => le (f x) (f y)).Pairwise fun x y => le (f x) (f y) = true := by
  have trans : ∀ x y z : α, le (f x) (f y) = true → le (f y) (f z) = true →
      le (f x) (f z) = true := fun _ _ _ => le_trans
  have total : ∀ x y : α, (le (f x) (f y) || le (f y) (f x)) = true := by
    intro x y
    rw [Bool.or_eq_true]
    exact le_total (f x) (f y)
  exact List.pairwise_mergeSort trans total xs

theorem pairwise_sorted (ts : List Text) : (sorted ts).Pairwise fun s t => le s t = true :=
  pairwise_mergeSort_le id ts

/-- Sorting forgets the order in which the texts were. -/
theorem sorted_eq_of_perm {ss ts : List Text} (h : ss.Perm ts) : sorted ss = sorted ts := by
  have hperm : (sorted ss).Perm (sorted ts) :=
    (List.mergeSort_perm ss le).trans (h.trans (List.mergeSort_perm ts le).symm)
  refine List.Perm.eq_of_pairwise ?_ (pairwise_sorted ss) (pairwise_sorted ts) hperm
  intro a b _ _ hab hba
  exact le_antisymm hab hba

theorem nodup_eraseDups (ts : List Text) : ts.eraseDups.Nodup := by
  cases ts with
  | nil => simp
  | cons t ts =>
      rw [List.eraseDups_cons, List.nodup_cons]
      exact ⟨by simp [List.mem_eraseDups], nodup_eraseDups _⟩
termination_by ts.length
decreasing_by
  exact Nat.lt_succ_of_le (List.length_filter_le _ ts)

/-- Sorted and without repetitions, two lists of the same texts are one list. -/
theorem sorted_eraseDups_congr {ss ts : List Text} (h : ∀ x, x ∈ ss ↔ x ∈ ts) :
    sorted ss.eraseDups = sorted ts.eraseDups := by
  refine sorted_eq_of_perm
    ((List.perm_ext_iff_of_nodup (nodup_eraseDups ss) (nodup_eraseDups ts)).mpr ?_)
  intro x
  rw [List.mem_eraseDups, List.mem_eraseDups, h]

/-! ## The order of octets -/

section

variable {m n v w d count base : Nat} {xs ys : Octets}

theorem ofNat_cons_lt (hm : m < 256) (hn : n < 256) (h : m < n ∨ (m = n ∧ xs < ys)) :
    UInt8.ofNat m :: xs < UInt8.ofNat n :: ys := by
  rw [List.cons_lt_cons_iff, UInt8.lt_iff_toNat_lt, UInt8.toNat_ofNat_of_lt' hm,
    UInt8.toNat_ofNat_of_lt' hn]
  rcases h with h | ⟨rfl, h⟩
  · exact .inl h
  · exact .inr ⟨rfl, h⟩

theorem append_lt_append_iff (zs : Octets) : zs ++ xs < zs ++ ys ↔ xs < ys := by
  induction zs with
  | nil => rfl
  | cons z zs ih => simp [ih]

/-- **A digit with a mark.** If two numbers differ in it or in the lower digits, it decides about
their order, or leaves that to the octets behind. -/
theorem digit_cons_lt (hd : 0 < d) (hcount : 0 < count) (hbase : count + base ≤ 256)
    (h : v % (d * count) < w % (d * count)) (hrest : v % d < w % d → xs < ys) :
    UInt8.ofNat (v / d % count + base) :: xs < UInt8.ofNat (w / d % count + base) :: ys := by
  have hv : v / d % count < count := Nat.mod_lt _ hcount
  have hw : w / d % count < count := Nat.mod_lt _ hcount
  have hlow : w % d < d := Nat.mod_lt _ hd
  rw [Nat.mod_mul, Nat.mod_mul] at h
  apply ofNat_cons_lt (by omega) (by omega)
  rcases Nat.lt_trichotomy (v / d % count) (w / d % count) with hlt | heq | hgt
  · left
    omega
  · right
    rw [heq] at h
    exact ⟨by omega, hrest (by omega)⟩
  · -- a greater digit weighs more than all lower digits
    exfalso
    have hmul := Nat.mul_le_mul_left d (Nat.succ_le_of_lt hgt)
    rw [Nat.mul_succ] at hmul
    omega

end

/-- **The form of a character is before that of a character with a higher number**, whatever comes
behind the two. -/
theorem utf8EncodeChar_append_lt {a b : Char} (h : a.toNat < b.toNat) (xs ys : Octets) :
    String.utf8EncodeChar a ++ xs < String.utf8EncodeChar b ++ ys := by
  -- a form with fewer octets has the lower first octet, one with as many differs in a digit
  rcases utf8EncodeChar_cases a with ⟨ha, ha'⟩ | ⟨ha, ha₂, ha'⟩ | ⟨ha, ha₂, ha'⟩ | ⟨ha, ha₂, ha'⟩
  · rcases utf8EncodeChar_cases b with ⟨hb, hb'⟩ | ⟨hb, hb₂, hb'⟩ | ⟨hb, hb₂, hb'⟩ | ⟨hb, hb₂, hb'⟩
    · rw [ha', hb']
      exact ofNat_cons_lt (by omega) (by omega) (.inl h)
    · rw [ha', hb']
      exact ofNat_cons_lt (by omega) (by omega) (.inl (by omega))
    · rw [ha', hb']
      exact ofNat_cons_lt (by omega) (by omega) (.inl (by omega))
    · rw [ha', hb']
      exact ofNat_cons_lt (by omega) (by omega) (.inl (by omega))
  · rcases utf8EncodeChar_cases b with ⟨hb, hb'⟩ | ⟨hb, hb₂, hb'⟩ | ⟨hb, hb₂, hb'⟩ | ⟨hb, hb₂, hb'⟩
    · omega
    · rw [ha', hb']
      apply digit_cons_lt (by decide) (by decide) (by decide) (by omega)
      intro h
      exact ofNat_cons_lt (by omega) (by omega) (.inl (by omega))
    · rw [ha', hb']
      exact ofNat_cons_lt (by omega) (by omega) (.inl (by omega))
    · rw [ha', hb']
      exact ofNat_cons_lt (by omega) (by omega) (.inl (by omega))
  · rcases utf8EncodeChar_cases b with ⟨hb, hb'⟩ | ⟨hb, hb₂, hb'⟩ | ⟨hb, hb₂, hb'⟩ | ⟨hb, hb₂, hb'⟩
    · omega
    · omega
    · rw [ha', hb']
      apply digit_cons_lt (by decide) (by decide) (by decide) (by omega)
      intro h
      apply digit_cons_lt (by decide) (by decide) (by decide) h
      intro h
      exact ofNat_cons_lt (by omega) (by omega) (.inl (by omega))
    · rw [ha', hb']
      exact ofNat_cons_lt (by omega) (by omega) (.inl (by omega))
  · rcases utf8EncodeChar_cases b with ⟨hb, hb'⟩ | ⟨hb, hb₂, hb'⟩ | ⟨hb, hb₂, hb'⟩ | ⟨hb, hb₂, hb'⟩
    · omega
    · omega
    · omega
    · rw [ha', hb']
      apply digit_cons_lt (by decide) (by decide) (by decide) (by omega)
      intro h
      apply digit_cons_lt (by decide) (by decide) (by decide) h
      intro h
      apply digit_cons_lt (by decide) (by decide) (by decide) h
      intro h
      exact ofNat_cons_lt (by omega) (by omega) (.inl (by omega))

/-- **The order of texts is that of their octets.** -/
theorem encode_lt_iff (s t : Text) : encode s < encode t ↔ le s t = true ∧ s ≠ t := by
  induction s generalizing t with
  | nil =>
      cases t with
      | nil => simp
      | cons b t =>
          have hne := String.utf8EncodeChar_ne_nil (c := b)
          obtain ⟨x, xs, hform⟩ := List.exists_cons_of_ne_nil hne
          simp [hform, le]
  | cons a s ih =>
      cases t with
      | nil => simp [le]
      | cons b t =>
          rw [encode_cons, encode_cons, le_cons_iff]
          -- the first characters decide, unless they are the same
          rcases Nat.lt_trichotomy a.toNat b.toNat with hlt | heq | hgt
          · have hne : a :: s ≠ b :: t := by
              rintro heq
              rw [(List.cons.inj heq).1] at hlt
              omega
            exact iff_of_true (utf8EncodeChar_append_lt hlt _ _) ⟨.inl hlt, hne⟩
          · obtain rfl := Char.toNat_inj.mp heq
            have hle : (a.toNat < a.toNat ∨ a.toNat = a.toNat ∧ le s t = true) ↔ le s t = true := by
              simp
            rw [append_lt_append_iff, ih, hle, ne_eq, ne_eq, List.cons_inj_right]
          · refine iff_of_false (List.lt_asymm (utf8EncodeChar_append_lt hgt _ _)) ?_
            omega

theorem encode_le_iff (s t : Text) : encode s ≤ encode t ↔ le s t = true := by
  rw [← List.not_lt, encode_lt_iff]
  constructor
  · intro h
    rcases le_total s t with hle | hle
    · exact hle
    · have heq : t = s := by
        by_contra hne
        exact h ⟨hle, hne⟩
      rw [heq] at hle ⊢
      exact hle
  · rintro hle ⟨hle', hne⟩
    exact hne (le_antisymm hle' hle)

end Text

end ParallelShell
