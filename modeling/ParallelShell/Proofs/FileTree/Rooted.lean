import ParallelShell.Proofs.FileTree.Content

set_option autoImplicit false

/-! # Trees in which every entry stands in a directory

The type of file trees does not keep an entry from standing below a file, or below nothing. No
system has such entries, and none comes about: a tree is **rooted** if every entry stands in a
directory (`IsRooted`), and a rooted tree stays rooted when a file is put where a walk has led
(`IsRooted.put`). In a rooted tree a walk that starts from a directory goes through directories only
(`IsRooted.isClosed`), so a place that it finds free is one in a directory that exists.
-/

namespace ParallelShell

namespace FileTree

variable {t : FileTree} {loc directory : Location}

/-- **Every entry stands in a directory.** -/
def IsRooted (t : FileTree) : Prop :=
  ∀ name loc node, t.node? (name :: loc) = some node → t.node? loc = some .directory

/-- A place where a file may be put: free, in a directory, or taken by a file. -/
inductive IsPlace (t : FileTree) (loc : Location) : Prop
  | free {name : Text} {directory : Location} :
      loc = name :: directory → t.node? directory = some .directory → t.node? loc = none →
      IsPlace t loc
  | taken {mode : Mode} {content : Content} :
      t.node? loc = some (.file mode content) → IsPlace t loc

theorem IsPlace.ne_nil (h : t.IsPlace loc) : loc ≠ [] := by
  cases h with
  | free hloc _ _ => simp [hloc]
  | taken hn => exact ne_nil_of_node?_file hn

theorem IsPlace.ne_directory (h : t.IsPlace loc) : t.node? loc ≠ some .directory := by
  cases h with
  | free _ _ hn => simp [hn]
  | taken hn => simp [hn]

/-- A file that is put somewhere takes the place of no directory. -/
theorem IsPlace.node?_put (h : t.IsPlace loc) (mode : Mode) (content : Content)
    (hdirectory : t.node? directory = some .directory) :
    (t.put loc (.file mode content)).node? directory = some .directory := by
  have hne : directory ≠ loc := by
    rintro rfl
    exact h.ne_directory hdirectory
  rw [FileTree.node?_put _ _ _ _ h.ne_nil, if_neg hne, hdirectory]

/-- **A rooted tree stays rooted** when a file is put somewhere. -/
theorem IsRooted.put (ht : t.IsRooted) (h : t.IsPlace loc) (mode : Mode) (content : Content) :
    (t.put loc (.file mode content)).IsRooted := by
  intro name directory node hn
  refine h.node?_put mode content ?_
  rw [FileTree.node?_put _ _ _ _ h.ne_nil] at hn
  split at hn
  · rename_i hloc
    cases h with
    | free hloc' hdirectory _ =>
        obtain ⟨-, rfl⟩ := List.cons.inj (hloc.trans hloc')
        exact hdirectory
    | taken hfile => exact ht name directory _ (hloc ▸ hfile)
  · exact ht name directory node hn

theorem IsRooted.writeAt (ht : t.IsRooted) (loc : Location) (offset : Nat) (data : Octets) :
    (t.writeAt loc offset data).IsRooted := by
  unfold FileTree.writeAt
  split
  · rename_i hn
    exact ht.put (.taken hn) _ _
  · exact ht

theorem node?_writeAt_directory (hdirectory : t.node? directory = some .directory)
    (loc : Location) (offset : Nat) (data : Octets) :
    (t.writeAt loc offset data).node? directory = some .directory := by
  unfold FileTree.writeAt
  split
  · rename_i hn
    exact IsPlace.node?_put (.taken hn) _ _ hdirectory
  · exact hdirectory

/-- **No walk leaves the directories** of a rooted tree. -/
theorem IsRooted.isClosed (ht : t.IsRooted) :
    t.IsClosed fun loc => t.node? loc = some .directory where
  root := t.node?_root
  parent := by
    intro loc hloc
    cases loc with
    | nil => exact hloc
    | cons name loc => exact ht name loc _ hloc
  entry := fun _ _ _ hn => hn

/-- What a path leads to from a directory of a rooted tree is a directory, if it is one, or stands
in one, if it is free. -/
theorem IsRooted.standsIn (ht : t.IsRooted) {creating : Bool} {path : Text} {f : Found}
    (hdirectory : t.node? directory = some .directory)
    (h : t.locate creating directory path = .ok f) :
    f.StandsIn (fun loc => t.node? loc = some .directory) t :=
  standsIn_of_locate ht.isClosed hdirectory h

theorem IsRooted.findDirectory (ht : t.IsRooted) {path : Text}
    (hdirectory : t.node? directory = some .directory)
    (h : t.findDirectory directory path = .ok loc) : t.node? loc = some .directory := by
  unfold FileTree.findDirectory at h
  split at h
  · rename_i hfind
    obtain rfl := Except.ok.inj h
    unfold find at hfind
    split at hfind
    · cases hfind
    · exact ht.standsIn (f := .directory _) hdirectory hfind
  · cases h
  · cases h

end FileTree

end ParallelShell
