import ParallelShell.SearchPath
import Mathlib.Data.List.Basic

set_option autoImplicit false

/-! # Paths that are the same

Two paths are the same if they have the same components, and components leave out the names that
stay where they are. This file says that nothing is lost in that: whether they start at the root,
their proper names, and whether they can be used at all are the same for both
(`Path.proper_names_eq` and the lemmas around it), and such names are passed over by a walk
(`FileTree.walk_append_proper`). So the two name the same directory (`findDirectory_eq_ok_iff`), and
joined with one name they lead to the same file (`isExecutable_join_eq`).

A name that stays where it is does count in two respects. At the end of a path it asks for a
directory, so it may be left out only if more names follow, or if there is a directory
(`walk_append_here`). And it takes up room: of two paths that are the same, one may be too long to
be used. Both statements say that neither is.
-/

namespace ParallelShell

/-- A character other than the mark is in a text if it is in one of its parts. -/
theorem Text.mem_iff_exists_mem_split {mark c : Char} (hc : c ≠ mark) (t : Text) :
    c ∈ t ↔ ∃ part ∈ split mark t, c ∈ part := by
  induction t with
  | nil => simp
  | cons d t ih =>
      rw [split_cons, List.mem_cons, ih]
      cases h : split mark t with
      | nil => exact absurd h (split_ne_nil mark t)
      | cons part parts =>
          by_cases hd : d = mark
          · simp [extend, hd, hc]
          · simp [extend, hd, or_assoc]

namespace Path

/-- The names that lead somewhere else. -/
def proper (ns : List Text) : List Text := ns.filter fun n => (step? n).isSome

/-- The name that a component stands for, if it stands for one. -/
def Component.name? : Component → Option Text
  | .down name => some name
  | .up => some parent
  | _ => none

theorem step?_eq_none_iff (n : Text) : step? n = none ↔ n = [] ∨ n = here := by
  by_cases h : n = [] ∨ n = here
  · simp only [step?, h, if_true]
  · have hs : step? n ≠ none := by
      rw [step?, if_neg h]
      split <;> simp
    exact iff_of_false hs h

theorem name?_of_step? {n : Text} {c : Component} (h : step? n = some c) : c.name? = some n := by
  unfold step? at h
  split at h
  · cases h
  · split at h
    · rename_i hp
      cases h
      exact congrArg some hp.symm
    · cases h
      rfl

theorem filterMap_name?_steps (ns : List Text) :
    (ns.filterMap step?).filterMap Component.name? = proper ns := by
  induction ns with
  | nil => rfl
  | cons n ns ih =>
      cases h : step? n with
      | none => simpa [proper, h] using ih
      | some c => simpa [proper, h, name?_of_step? h] using ih

/-- The proper names of a path can be read off its components. -/
theorem filterMap_name?_components (p : Text) :
    (components p).filterMap Component.name? = proper (names p) := by
  unfold components
  split
  · exact filterMap_name?_steps _
  · split <;> exact filterMap_name?_steps _

/-- Whether a path starts at the root can be read off its components. -/
theorem root_mem_components_iff (p : Text) :
    Component.root ∈ components p ↔ isAbsolute p = true := by
  have hsteps : Component.root ∉ (names p).filterMap step? := by
    intro h
    obtain ⟨n, -, hn⟩ := List.mem_filterMap.mp h
    unfold step? at hn
    split at hn
    · cases hn
    · split at hn <;> cases hn
  unfold components
  by_cases ha : isAbsolute p = true
  · simp [ha]
  · simp only [ha, Bool.false_eq_true, if_false, iff_false]
    split
    · simpa using hsteps
    · exact hsteps

/-- Only the empty path has no components. -/
theorem components_eq_nil_iff (p : Text) : components p = [] ↔ p = [] := by
  constructor
  · intro h
    cases p with
    | nil => rfl
    | cons c p =>
        have habs : isAbsolute (c :: p) = false := by
          rw [Bool.eq_false_iff, ne_eq, ← root_mem_components_iff, h]
          exact List.not_mem_nil
        have hc : c ≠ slash := by
          rintro rfl
          cases habs
        -- the first name starts with `c`, so if it is no step, it is the name `.`
        obtain ⟨n, ns, hns⟩ : ∃ n ns, names (c :: p) = (c :: n) :: ns := by
          rw [names, Text.split_cons]
          cases hp : Text.split slash p with
          | nil => exact absurd hp (Text.split_ne_nil slash p)
          | cons n ns => exact ⟨n, ns, by simp [Text.extend, hc]⟩
        simp only [components, habs, Bool.false_eq_true, if_false, hns, List.head?_cons] at h
        split at h
        · cases h
        · rename_i hhere
          cases hs : step? (c :: n) with
          | none =>
              rcases (step?_eq_none_iff _).mp hs with hn | hn
              · cases hn
              · exact absurd (congrArg some hn) hhere
          | some d => simp [hs] at h
  · rintro rfl
    decide

variable {p q : Text}

theorem proper_names_eq (h : components p = components q) :
    proper (names p) = proper (names q) := by
  rw [← filterMap_name?_components, ← filterMap_name?_components, h]

theorem isAbsolute_eq (h : components p = components q) : isAbsolute p = isAbsolute q := by
  rw [Bool.eq_iff_iff, ← root_mem_components_iff, ← root_mem_components_iff, h]

theorem eq_nil_iff (h : components p = components q) : p = [] ↔ q = [] := by
  rw [← components_eq_nil_iff, ← components_eq_nil_iff, h]

theorem hasNul_iff (p : Text) : hasNul p = true ↔ ∃ n ∈ proper (names p), Char.ofNat 0 ∈ n := by
  have hmem : hasNul p = true ↔ ∃ n ∈ names p, Char.ofNat 0 ∈ n := by
    rw [hasNul, List.contains_iff_mem]
    exact Text.mem_iff_exists_mem_split (by decide) p
  rw [hmem]
  constructor
  · rintro ⟨n, hn, h0⟩
    refine ⟨n, List.mem_filter.mpr ⟨hn, ?_⟩, h0⟩
    by_contra hs
    rw [Option.not_isSome_iff_eq_none, step?_eq_none_iff] at hs
    rcases hs with rfl | rfl
    · simp at h0
    · exact absurd h0 (by decide)
  · rintro ⟨n, hn, h0⟩
    exact ⟨n, (List.mem_filter.mp hn).1, h0⟩

theorem hasNul_eq (h : components p = components q) : hasNul p = hasNul q := by
  rw [Bool.eq_iff_iff, hasNul_iff, hasNul_iff, proper_names_eq h]

/-! ## Joining a name -/

theorem isAbsolute_join (hp : p ≠ []) {n : Text} (hn : isAbsolute n = false) :
    isAbsolute (join p n) = isAbsolute p := by
  obtain ⟨c, p, rfl⟩ := List.exists_cons_of_ne_nil hp
  simp only [join, hn, Bool.false_eq_true, if_false]
  split <;> rfl

theorem hasNul_join {n : Text} (hn : isAbsolute n = false) :
    hasNul (join p n) = (hasNul p || hasNul n) := by
  have happ : ∀ r, hasNul (p ++ r) = (hasNul p || hasNul r) := by
    intro r
    simp [hasNul]
  have hcons : hasNul (slash :: n) = hasNul n := by
    simp [hasNul, slash]
  simp only [join, hn, Bool.false_eq_true, if_false]
  split
  · exact happ n
  · rw [happ, hcons]

/-- The names of a joined path are those of the directory and those that are joined. A slash at the
end of the directory is the one between the two. -/
theorem exists_names_join (hp : p ≠ []) {n : Text} (hn : isAbsolute n = false) :
    ∃ front, names (join p n) = front ++ names n ∧ proper front = proper (names p) := by
  simp only [join, hn, Bool.false_eq_true, if_false, List.isEmpty_iff, Bool.or_eq_true,
    beq_iff_eq, hp, false_or]
  split
  · rename_i hlast
    obtain ⟨p', rfl⟩ := List.getLast?_eq_some_iff.mp hlast
    have hnames : names (p' ++ [slash]) = names p' ++ [[]] := Text.split_append_cons slash p' []
    refine ⟨names p', ?_, ?_⟩
    · rw [List.append_assoc]
      exact Text.split_append_cons slash p' n
    · rw [hnames, proper, proper, List.filter_append]
      simp [step?]
  · exact ⟨names p, Text.split_append_cons slash p n, rfl⟩

end Path

namespace FileTree

open ParallelShell.Path

variable (t : FileTree)

/-! ## Walking -/

/-- As long as names follow, a name that stays in a directory can be left out. -/
theorem descend_append_superfluous {s : Text} (hs : step? s = none) {after : List Text}
    (hafter : after ≠ []) {follow : Location → Text → List Text → Except Errno Found}
    (hf : ∀ loc target rest,
      follow loc target (rest ++ s :: after) = follow loc target (rest ++ after))
    (before : List Text) (found : Found) :
    descend t false follow found (before ++ s :: after) =
      descend t false follow found (before ++ after) := by
  obtain ⟨a, after, rfl⟩ := List.exists_cons_of_ne_nil hafter
  rw [step?_eq_none_iff] at hs
  induction before generalizing found with
  | nil =>
      cases found with
      | directory loc => rw [List.nil_append, List.nil_append, descend, if_pos hs]
      | _ => rfl
  | cons name before ih =>
      cases found with
      | directory loc =>
          have he : (before ++ s :: a :: after).isEmpty = (before ++ a :: after).isEmpty := by
            cases before <;> rfl
          simp only [List.cons_append, descend, Bool.false_and, Bool.false_eq_true, if_false, ih,
            hf, he]
      | _ => rfl

theorem walk_append_superfluous {s : Text} (hs : step? s = none) {after : List Text}
    (hafter : after ≠ []) (links : Nat) (loc : Location) (before : List Text) :
    t.walk false links loc (before ++ s :: after) = t.walk false links loc (before ++ after) := by
  induction links generalizing loc before with
  | zero =>
      rw [walk, walk]
      exact descend_append_superfluous t hs hafter (fun _ _ _ => rfl) before _
  | succ links ih =>
      rw [walk, walk]
      refine descend_append_superfluous t hs hafter ?_ before _
      intro loc target rest
      rw [← List.append_assoc, ← List.append_assoc]
      exact ih _ _

/-- **As long as names follow, only the proper names count.** -/
theorem walk_append_proper (links : Nat) (loc : Location) {after : List Text}
    (hafter : after ≠ []) (middle before : List Text) :
    t.walk false links loc (before ++ (middle ++ after)) =
      t.walk false links loc (before ++ (proper middle ++ after)) := by
  -- a name that stays is left out, any other one is passed to the names before
  induction middle generalizing before with
  | nil => rfl
  | cons name middle ih =>
      cases hs : step? name with
      | none =>
          have hp : proper (name :: middle) = proper middle := by simp [proper, hs]
          rw [hp, List.cons_append,
            walk_append_superfluous t hs (List.append_ne_nil_of_right_ne_nil _ hafter), ih]
      | some c =>
          have hp : proper (name :: middle) = name :: proper middle := by simp [proper, hs]
          have hone := ih (before ++ [name])
          simpa [hp] using hone

/-- At the end, the name `.` asks for a directory. -/
theorem descend_append_here {follow : Location → Text → List Text → Except Errno Found}
    {d : Location}
    (hf : ∀ loc target rest,
      follow loc target (rest ++ [here]) = .ok (.directory d) ↔
        follow loc target rest = .ok (.directory d))
    (names : List Text) (found : Found) :
    descend t false follow found (names ++ [here]) = .ok (.directory d) ↔
      descend t false follow found names = .ok (.directory d) := by
  induction names generalizing found with
  | nil => cases found <;> simp [descend]
  | cons name names ih =>
      cases found with
      | directory loc =>
          simp only [List.cons_append, descend, Bool.false_and, Bool.false_eq_true, if_false]
          split
          · exact ih _
          split
          · exact ih _
          split
          · exact Iff.rfl
          split
          · by_cases hn : names = [] <;> simp [hn]
          · exact ih _
          · exact ih _
          · exact ih _
          · exact hf _ _ _
      | _ => simp [descend]

theorem walk_append_here (links : Nat) (loc d : Location) (names : List Text) :
    t.walk false links loc (names ++ [here]) = .ok (.directory d) ↔
      t.walk false links loc names = .ok (.directory d) := by
  induction links generalizing loc names with
  | zero =>
      rw [walk, walk]
      exact descend_append_here t (fun _ _ _ => Iff.rfl) names _
  | succ links ih =>
      rw [walk, walk]
      refine descend_append_here t ?_ names _
      intro loc target rest
      rw [← List.append_assoc]
      exact ih _ _

/-- Whether names lead to a directory, and to which, depends on the proper ones. -/
theorem walk_eq_directory_iff (links : Nat) (loc d : Location) (names : List Text) :
    t.walk false links loc names = .ok (.directory d) ↔
      t.walk false links loc (proper names) = .ok (.directory d) := by
  have hproper := walk_append_proper t links loc (List.cons_ne_nil here []) names []
  rw [← walk_append_here, ← walk_append_here t links loc d (proper names)]
  exact Eq.congr_left hproper

/-! ## Using a path -/

variable {t} {p q : Text}

theorem refusal?_eq_none_iff (path : Text) :
    refusal? path = none ↔ hasNul path = false ∧ path ≠ [] ∧ Text.size path ≤ maxPath := by
  rw [← Bool.not_eq_true, ne_eq, ← List.isEmpty_iff, ← Nat.not_lt]
  unfold refusal?
  split
  · simp [*]
  · split
    · simp [*]
    · split <;> simp [*]

theorem findDirectory_eq_ok_iff_walk (directory loc : Location) (path : Text) :
    t.findDirectory directory path = .ok loc ↔
      refusal? path = none ∧
        t.walk false maxLinks (base directory path) (names path) = .ok (.directory loc) := by
  unfold findDirectory find locate
  cases hr : refusal? path with
  | some cause => simp
  | none =>
      cases hw : t.walk false maxLinks (base directory path) (names path) with
      | error e => simp
      | ok found => cases found <;> simp

/-- **Paths that are the same name the same directory.** -/
theorem findDirectory_eq_ok_iff (h : components p = components q)
    (hp : Text.size p ≤ maxPath) (hq : Text.size q ≤ maxPath) (directory loc : Location) :
    t.findDirectory directory p = .ok loc ↔ t.findDirectory directory q = .ok loc := by
  have hbase : base directory p = base directory q := by rw [base, base, isAbsolute_eq h]
  have hrefusal : refusal? p = none ↔ refusal? q = none := by
    rw [refusal?_eq_none_iff, refusal?_eq_none_iff, hasNul_eq h, ne_eq, ne_eq, eq_nil_iff h]
    simp [hp, hq]
  rw [findDirectory_eq_ok_iff_walk, findDirectory_eq_ok_iff_walk, hrefusal, hbase,
    walk_eq_directory_iff t _ _ _ (names p), walk_eq_directory_iff t _ _ _ (names q),
    proper_names_eq h]

/-- **Paths that are the same lead to the same place, whatever is joined to them.** -/
theorem locate_join_eq (h : components p = components q) {n : Text}
    (hp : Text.size (join p n) ≤ maxPath) (hq : Text.size (join q n) ≤ maxPath)
    (directory : Location) :
    t.locate false directory (join p n) = t.locate false directory (join q n) := by
  by_cases hn : isAbsolute n = true
  · rw [join_of_isAbsolute hn, join_of_isAbsolute hn]
  rw [Bool.not_eq_true] at hn
  by_cases hnil : p = []
  · rw [hnil, (eq_nil_iff h).mp hnil]
  have hnil' : q ≠ [] := fun e => hnil ((eq_nil_iff h).mpr e)
  have hrefusal : refusal? (join p n) = refusal? (join q n) := by
    have hne : join p n ≠ [] := List.ne_nil_of_mem (slash_mem_join hnil n)
    have hne' : join q n ≠ [] := List.ne_nil_of_mem (slash_mem_join hnil' n)
    simp only [refusal?, hasNul_join hn, hasNul_eq h, List.isEmpty_iff, hne, hne',
      Nat.not_lt.mpr hp, Nat.not_lt.mpr hq]
  have hwalk : t.walk false maxLinks (base directory (join p n)) (names (join p n)) =
      t.walk false maxLinks (base directory (join q n)) (names (join q n)) := by
    have hbase : base directory (join p n) = base directory (join q n) := by
      rw [base, base, isAbsolute_join hnil hn, isAbsolute_join hnil' hn, isAbsolute_eq h]
    obtain ⟨front, hnames, hfront⟩ := exists_names_join hnil hn
    obtain ⟨front', hnames', hfront'⟩ := exists_names_join hnil' hn
    have hmore : names n ≠ [] := Text.split_ne_nil slash n
    have hproper := walk_append_proper t maxLinks (base directory (join q n)) hmore front []
    have hproper' := walk_append_proper t maxLinks (base directory (join q n)) hmore front' []
    simp only [List.nil_append] at hproper hproper'
    rw [hbase, hnames, hnames', hproper, hproper', hfront, hfront', proper_names_eq h]
  rw [locate, locate, hrefusal, hwalk]

theorem isExecutable_join_eq (h : components p = components q) {n : Text}
    (hp : Text.size (join p n) ≤ maxPath) (hq : Text.size (join q n) ≤ maxPath)
    (directory : Location) :
    t.isExecutable directory (join p n) = t.isExecutable directory (join q n) := by
  rw [isExecutable, isExecutable, find, find, locate_join_eq h hp hq]

end FileTree

end ParallelShell
