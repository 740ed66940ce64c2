import ParallelShell.Proofs.FileTree.SamePath

set_option autoImplicit false

/-! # The last name of a path

There are two ways to come to an entry of a directory. One is to read the directory, and to take
an entry of it; the other is to walk a path that ends with the name of the entry. They agree as far
as this file goes: a walk that finds something behind a name has gone through a directory, and the
name is one of its entries (`FileTree.exists_directory_of_walk`). So if a name that is joined to a
path leads to a file that may be executed, then the path names a directory that has an entry of
that name (`FileTree.findDirectory_of_isExecutable_join`), through whatever links either of them
leads.

The name has to be one that an entry can have (`Path.IsName`). The names `.` and `..` stand for
places as well, but not for entries.
-/

namespace ParallelShell

namespace Path

/-- **A name that an entry can have.** -/
structure IsName (n : Text) : Prop where
  ne_nil : n ≠ []
  slash_not_mem : slash ∉ n
  ne_here : n ≠ here
  ne_parent : n ≠ parent

instance : DecidablePred IsName := fun n =>
  decidable_of_iff (n ≠ [] ∧ slash ∉ n ∧ n ≠ here ∧ n ≠ parent)
    ⟨fun h => ⟨h.1, h.2.1, h.2.2.1, h.2.2.2⟩,
      fun h => ⟨h.ne_nil, h.slash_not_mem, h.ne_here, h.ne_parent⟩⟩

variable {n : Text}

theorem IsName.isAbsolute (h : IsName n) : isAbsolute n = false := by
  rw [Bool.eq_false_iff]
  intro ha
  apply h.slash_not_mem
  exact List.mem_of_mem_head? (by simpa [Path.isAbsolute] using ha)

theorem IsName.names (h : IsName n) : names n = [n] := Text.split_of_not_mem h.slash_not_mem

/-- Joining a name makes a path no shorter. -/
theorem size_le_size_join (p : Text) (hn : isAbsolute n = false) :
    Text.size p ≤ Text.size (join p n) := by
  simp only [join, hn, Bool.false_eq_true, if_false]
  split
  · rw [Text.size_append]
    omega
  · rw [Text.size_append]
    omega

end Path

namespace FileTree

open ParallelShell.Path

variable {t : FileTree} {n p : Text} {directory : Location}

/-- What may be executed is a file. -/
theorem exists_file_of_isExecutable (h : t.isExecutable directory p = true) :
    ∃ loc mode content, t.find directory p = .ok (.file loc mode content) ∧
      mode.mayExecute = true := by
  unfold FileTree.isExecutable at h
  split at h
  · exact ⟨_, _, _, ‹_›, h⟩
  · cases h

/-- Where names and one more lead to something, the names before it lead to a directory, and the
last one is that of an entry. What happens behind a link is left to `follow`. -/
theorem exists_directory_of_descend (hn : IsName n)
    {follow : Location → Text → List Text → Except Errno Found}
    (hfollow : ∀ loc target rest f, follow loc target (rest ++ [n]) = .ok f →
      (∀ d m, f ≠ .absent d m) →
        ∃ d, follow loc target rest = .ok (.directory d) ∧ t.node? (n :: d) ≠ none)
    {names : List Text} {found f : Found}
    (h : descend t false follow found (names ++ [n]) = .ok f) (hf : ∀ d m, f ≠ .absent d m) :
    ∃ d, descend t false follow found names = .ok (.directory d) ∧ t.node? (n :: d) ≠ none := by
  have hstay : ¬ (n = [] ∨ n = here) := fun h => h.elim hn.ne_nil hn.ne_here
  induction names generalizing found with
  | nil =>
      cases found with
      | directory loc =>
          -- only the name of the entry is left, and something is found behind it
          refine ⟨loc, rfl, fun hnone => ?_⟩
          simp only [List.nil_append, descend, hstay, hn.ne_parent, if_false, Bool.false_and,
            Bool.false_eq_true, hnone] at h
          split at h
          · cases h
          · exact hf _ _ (Except.ok.inj h).symm
      | _ => cases h
  | cons name names ih =>
      cases found with
      | directory loc =>
          have hmore : (names ++ [n]).isEmpty = false := by cases names <;> rfl
          simp only [List.cons_append, descend, Bool.false_and, Bool.false_eq_true, if_false,
            hmore] at h ⊢
          split at h
          · rw [if_pos ‹_›]
            exact ih h
          rw [if_neg ‹_›]
          split at h
          · rw [if_pos ‹_›]
            exact ih h
          rw [if_neg ‹_›]
          split at h
          · cases h
          rw [if_neg ‹_›]
          split at h
          · cases h
          · exact ih h
          · exact ih h
          · exact ih h
          · exact hfollow _ _ _ _ h hf
      | _ => cases h

/-- **A walk comes to an entry through its directory.** -/
theorem exists_directory_of_walk (hn : IsName n) {links : Nat} {loc : Location}
    {names : List Text} {f : Found} (h : t.walk false links loc (names ++ [n]) = .ok f)
    (hf : ∀ d m, f ≠ .absent d m) :
    ∃ d, t.walk false links loc names = .ok (.directory d) ∧ t.node? (n :: d) ≠ none := by
  induction links generalizing loc names f with
  | zero =>
      rw [walk] at h ⊢
      exact exists_directory_of_descend hn (fun _ _ _ _ h => by cases h) h hf
  | succ links ih =>
      rw [walk] at h ⊢
      refine exists_directory_of_descend hn ?_ h hf
      intro loc target rest f h hf
      rw [← List.append_assoc] at h
      exact ih h hf

/-- **A file that may be executed is an entry of its directory**, whether it is looked for in the
directory or by the name that is joined to it. -/
theorem findDirectory_of_isExecutable_join (hp : p ≠ []) (hn : IsName n)
    (h : t.isExecutable directory (join p n) = true) :
    ∃ loc, t.findDirectory directory p = .ok loc ∧ t.node? (n :: loc) ≠ none := by
  obtain ⟨loc, mode, content, hfind, -⟩ := exists_file_of_isExecutable h
  obtain ⟨front, hnames, hfront⟩ := exists_names_join hp hn.isAbsolute
  -- the joined path can be used, and its walk ends at a file
  obtain ⟨hused, hwalk⟩ : refusal? (join p n) = none ∧
      t.walk false maxLinks (base directory (join p n)) (names (join p n)) =
        .ok (.file loc mode content) := by
    unfold find locate at hfind
    cases hr : refusal? (join p n) with
    | some cause => simp [hr] at hfind
    | none =>
        simp only [hr] at hfind
        cases hw : t.walk false maxLinks (base directory (join p n)) (names (join p n)) with
        | error e => simp [hw] at hfind
        | ok found => cases found <;> simp_all
  rw [hnames, hn.names, base, isAbsolute_join hp hn.isAbsolute, ← base] at hwalk
  obtain ⟨d, hd, hentry⟩ := exists_directory_of_walk hn hwalk (by simp)
  -- the names in front of the last one are those of the directory
  rw [walk_eq_directory_iff, hfront, ← walk_eq_directory_iff] at hd
  refine ⟨d, (findDirectory_eq_ok_iff_walk _ _ _).mpr ⟨?_, hd⟩, hentry⟩
  rw [refusal?_eq_none_iff, hasNul_join hn.isAbsolute, Bool.or_eq_false_iff] at hused
  rw [refusal?_eq_none_iff]
  have hsize := size_le_size_join p hn.isAbsolute
  exact ⟨hused.1.1, hp, by omega⟩

end FileTree

end ParallelShell
