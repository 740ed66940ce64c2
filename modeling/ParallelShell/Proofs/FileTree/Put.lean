import ParallelShell.Proofs.FileTree.Content

set_option autoImplicit false

/-! # Trees in which a file has been put

Opening a file for output puts a file somewhere: at a place that was free, or in the place of the
file that stood there. `FileTree.Put` compares walks before and after. A walk that does not come to
that place is the same. One that ends there now ends at the new file, and one that was to go on from
there fails in either case, only that it stumbles over a file now and not over a gap.

For executable files this means that a path names one afterwards if it named one before, or if it
led to the free place (`isExecutable_put_free`); and that a file that is replaced by one with the
same rights changes nothing (`isExecutable_put_file`).
-/

namespace ParallelShell

namespace FileTree

/-- The walks of a path before and after a file was put at a location. -/
inductive Put (t : FileTree) (loc : Location) (mode : Mode) (content : Content) :
    Except Errno Found → Except Errno Found → Prop
  | same (r : Except Errno Found) :
      (∀ directory name, name :: directory = loc → r ≠ .ok (.absent directory name)) →
      Put t loc mode content r r
  | free {directory : Location} {name : Text} :
      t.node? loc = none → name :: directory = loc →
      Put t loc mode content (.ok (.absent directory name)) (.ok (.file loc mode content))
  | replaced {old : Mode} {c : Content} :
      t.node? loc = some (.file old c) →
      Put t loc mode content (.ok (.file loc old c)) (.ok (.file loc mode content))
  | blocked : Put t loc mode content (.error .noEntry) (.error .notDirectory)

variable {t : FileTree} {loc : Location} {mode : Mode} {content : Content}

/-- A refusal that has nothing to do with the place. -/
theorem Put.error (e : Errno) : Put t loc mode content (.error e) (.error e) :=
  .same _ (by simp)

/-- From a directory, the names that are left lead to the same place or to the new file, if they do
so after every link. -/
theorem descend_put (hloc : loc ≠ [])
    (hnode : t.node? loc = none ∨ ∃ old c, t.node? loc = some (.file old c)) (creating : Bool)
    {follow follow' : Location → Text → List Text → Except Errno Found}
    (hf : ∀ dir target rest,
      Put t loc mode content (follow dir target rest) (follow' dir target rest))
    (names : List Text) (dir : Location) :
    Put t loc mode content (descend t creating follow (.directory dir) names)
      (descend (t.put loc (.file mode content)) creating follow' (.directory dir) names) := by
  induction names generalizing dir with
  | nil =>
      simp only [descend]
      exact .same _ (by simp)
  | cons name rest ih =>
      simp only [descend]
      split
      · exact ih dir
      split
      · exact ih dir.tail
      split
      · exact .error _
      split
      · exact .error _
      -- now a name is looked up, either at the place of the new file or elsewhere
      rw [node?_put t loc (name :: dir) _ hloc]
      by_cases hhere : name :: dir = loc
      · rw [if_pos hhere, hhere]
        rcases hnode with hnone | ⟨old, c, hfile⟩
        · rw [hnone]
          cases rest with
          | nil => exact .free hnone hhere
          | cons n rest => exact .blocked
        · rw [hfile]
          cases rest with
          | nil => exact .replaced hfile
          | cons n rest => exact .error _
      · rw [if_neg hhere]
        have hfile : ∀ m c, Put t loc mode content
            (descend t creating follow (.file (name :: dir) m c) rest)
            (descend (t.put loc (.file mode content)) creating follow'
              (.file (name :: dir) m c) rest) := by
          intro m c
          cases rest with
          | nil => exact .same _ (by simp [descend])
          | cons n rest => exact .error _
        cases t.node? (name :: dir) with
        | none =>
            dsimp only
            split
            · refine .same _ ?_
              intro d n hd h
              obtain ⟨hdir, hname⟩ := Found.absent.inj (Except.ok.inj h)
              exact hhere (by rw [hdir, hname, hd])
            · exact .error _
        | some node =>
            cases node with
            | directory => exact ih _
            | file m c => exact hfile m c
            | device d =>
                cases rest with
                | nil => exact .same _ (by simp [descend])
                | cons n rest => exact .error _
            | link target => exact hf dir target rest

/-- **A path leads to the same place, or to the new file.** -/
theorem walk_put (mode : Mode) (content : Content) (hloc : loc ≠ [])
    (hnode : t.node? loc = none ∨ ∃ old c, t.node? loc = some (.file old c)) (creating : Bool)
    (links : Nat) (dir : Location) (names : List Text) :
    Put t loc mode content (t.walk creating links dir names)
      ((t.put loc (.file mode content)).walk creating links dir names) := by
  induction links generalizing dir names with
  | zero =>
      rw [walk, walk]
      exact descend_put hloc hnode creating (fun _ _ _ => .error _) names dir
  | succ links ih =>
      rw [walk, walk]
      exact descend_put hloc hnode creating (fun _ _ _ => ih _ _) names dir

theorem locate_put (mode : Mode) (content : Content) (hloc : loc ≠ [])
    (hnode : t.node? loc = none ∨ ∃ old c, t.node? loc = some (.file old c)) (creating : Bool)
    (directory : Location) (path : Text) :
    (∃ cause, t.locate creating directory path = .error cause ∧
        (t.put loc (.file mode content)).locate creating directory path = .error cause) ∨
      ∃ r r', Put t loc mode content r r' ∧
        t.locate creating directory path = r.mapError .errno ∧
        (t.put loc (.file mode content)).locate creating directory path = r'.mapError .errno := by
  unfold locate
  cases refusal? path with
  | some cause => exact Or.inl ⟨cause, rfl, rfl⟩
  | none =>
      have hput := walk_put mode content hloc hnode creating maxLinks (base directory path)
        (Path.names path)
      refine Or.inr ⟨_, _, hput, ?_, ?_⟩
      · cases t.walk creating maxLinks (base directory path) (Path.names path) <;> rfl
      · cases (t.put loc (.file mode content)).walk creating maxLinks (base directory path)
          (Path.names path) <;> rfl

/-! ## Executable files -/

/-- Whether a path leads to a free place, which can be taken by a new file. -/
def leadsToFree (t : FileTree) (directory : Location) (path : Text) (loc : Location) : Bool :=
  match t.locate false directory path with
  | .ok (.absent dir name) => name :: dir = loc
  | _ => false

theorem isExecutable_eq_locate (t : FileTree) (directory : Location) (path : Text) :
    t.isExecutable directory path =
      match t.locate false directory path with
      | .ok (.file _ mode _) => mode.mayExecute
      | _ => false := by
  unfold isExecutable find
  split
  · rename_i h
    split at h <;> simp_all
  · rename_i h
    split <;> simp_all

/-- **A new executable file**: a path names an executable file if it did so before, or if it led to
the place of the new one. -/
theorem isExecutable_put_free (hloc : loc ≠ []) (hnode : t.node? loc = none)
    (hmode : mode.mayExecute = true) (directory : Location) (path : Text) :
    (t.put loc (.file mode content)).isExecutable directory path =
      (t.isExecutable directory path || t.leadsToFree directory path loc) := by
  rw [isExecutable_eq_locate, isExecutable_eq_locate, leadsToFree]
  rcases locate_put mode content hloc (Or.inl hnode) false directory path with
    ⟨cause, h, h'⟩ | ⟨r, r', hput, h, h'⟩
  · rw [h, h']
    rfl
  · rw [h, h']
    cases hput with
    | same _ hfree =>
        cases r with
        | error e => rfl
        | ok f =>
            cases f with
            | absent dir name =>
                have hne : name :: dir ≠ loc := fun h => hfree dir name h rfl
                show false = (false || decide (name :: dir = loc))
                rw [decide_eq_false hne, Bool.or_false]
            | _ => exact (Bool.or_false _).symm
    | @free dir name _ hd =>
        show mode.mayExecute = (false || decide (name :: dir = loc))
        rw [hmode, decide_eq_true hd, Bool.or_true]
    | replaced hfile => cases hnode.symm.trans hfile
    | blocked => rfl

/-- **A file replaced by one with the same rights**: a path names an executable file exactly if it
did so before. -/
theorem isExecutable_put_file {old : Mode} {c : Content} (hnode : t.node? loc = some (.file old c))
    (hmode : mode.mayExecute = old.mayExecute) (directory : Location) (path : Text) :
    (t.put loc (.file mode content)).isExecutable directory path =
      t.isExecutable directory path := by
  rw [isExecutable_eq_locate, isExecutable_eq_locate]
  rcases locate_put mode content (ne_nil_of_node?_file hnode) (Or.inr ⟨old, c, hnode⟩) false
      directory path with ⟨cause, h, h'⟩ | ⟨r, r', hput, h, h'⟩
  · rw [h, h']
  · rw [h, h']
    cases hput with
    | same => rfl
    | free hfree _ => cases hfree.symm.trans hnode
    | replaced hfile =>
        obtain ⟨rfl, -⟩ := Node.file.inj (Option.some.inj (hfile.symm.trans hnode))
        exact hmode
    | blocked => rfl

end FileTree

end ParallelShell
