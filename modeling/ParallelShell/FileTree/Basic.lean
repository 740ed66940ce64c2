import ParallelShell.FileTree.Mode
import ParallelShell.Path
import ParallelShell.Text.Decode

set_option autoImplicit false

/-! # File trees

A **file tree** says which places are taken and by what. A place is a **location**: the names
that lead to it from the root, the innermost first, so that the parent of a location is its tail
and an entry of a directory is one name in front of it. What stands at a location is a **node**: a
directory, a file with its mode and content, a symbolic link with its target, or a device.

A location has at most one node; that is part of the type (`distinct`). The root is a directory
whatever the entries say, so a walk always has a place to start from.

The view of a tree is `node?`. What changes a tree changes that view at one location and nowhere
else (`node?_put`, `node?_erase`).

Whoever reads a directory may see less than its entries, or more (`Sight`). A directory that one may
go through need not be readable; and there may be files in it whose names are not UTF-8, which no
text leads to. Nothing changes that.
-/

namespace ParallelShell

/-- A place in a file tree: the names that lead to it, the innermost first. -/
abbrev Location := List Text

def Location.path (loc : Location) : Text :=
  if loc.isEmpty then [Path.slash]
  else loc.reverse.flatMap fun name => Path.slash :: name

inductive Content where
  /-- Octets. -/
  | octets (data : Octets)
  /-- A program in the form the machine executes. -/
  | program
  deriving DecidableEq, Repr

/-- A file that is no file of the tree: what is written to a device is gone. -/
inductive Device where
  /-- Takes everything. -/
  | null
  /-- Takes nothing, as a disk without room. -/
  | full
  deriving DecidableEq, Repr

inductive Node where
  | directory
  | file (mode : Mode) (content : Content)
  | link (target : Text)
  | device (device : Device)
  deriving DecidableEq, Repr

/-- What no text leads to, because its name is not UTF-8: a file, or a link to one, with the mode of
the file. -/
structure Stray where
  directory : Location
  name : Octets
  mode : Mode
  isNoText : Text.ofOctets? name = none

/-- What is seen of directories that are read, apart from their entries. -/
structure Sight where
  /-- The directories that may not be read, though one may go through them. -/
  closed : List Location := []
  strays : List Stray := []

def Sight.isClosed (x : Sight) (loc : Location) : Bool := x.closed.any fun other => other = loc

structure FileTree where
  entries : List (Location × Node)
  distinct : (entries.map Prod.fst).Nodup
  sight : Sight := {}

namespace FileTree

def empty : FileTree := { entries := [], distinct := List.nodup_nil }

instance : Inhabited FileTree := ⟨empty⟩

def lookup (loc : Location) : List (Location × Node) → Option Node
  | [] => none
  | (l, n) :: rest => if l = loc then some n else lookup loc rest

def node? (t : FileTree) (loc : Location) : Option Node :=
  if loc = [] then some .directory else lookup loc t.entries

/-- Entries with another node at a location that is taken. -/
def replace (loc : Location) (node : Node) (es : List (Location × Node)) :
    List (Location × Node) :=
  es.map fun e => if e.1 = loc then (loc, node) else e

theorem map_fst_replace (loc : Location) (node : Node) (es : List (Location × Node)) :
    (replace loc node es).map Prod.fst = es.map Prod.fst := by
  simp only [replace, List.map_map]
  apply List.map_congr_left
  intro e _
  by_cases h : e.1 = loc <;> simp [h]

/-- The tree with a node at a location, in place of the one that was there. -/
def put (t : FileTree) (loc : Location) (node : Node) : FileTree :=
  if h : loc ∈ t.entries.map Prod.fst then
    { t with
      entries := replace loc node t.entries
      distinct := by rw [map_fst_replace]; exact t.distinct }
  else
    { t with
      entries := t.entries ++ [(loc, node)]
      distinct := by
        simp only [List.map_append, List.map_cons, List.map_nil]
        refine List.nodup_append.mpr ⟨t.distinct, by simp, ?_⟩
        intro a ha b hb
        simp only [List.mem_singleton] at hb
        subst hb
        intro hab
        exact h (hab ▸ ha) }

def erase (t : FileTree) (loc : Location) : FileTree :=
  { t with
    entries := t.entries.filter fun e => e.1 ≠ loc
    distinct := (List.filter_sublist.map Prod.fst).nodup t.distinct }

def children (t : FileTree) (directory : Location) : List Text :=
  t.entries.filterMap fun e =>
    match e.1 with
    | [] => none
    | name :: parent => if parent = directory then some name else none

/-- The content of a file after octets have been written at an offset. What lay there before is
overwritten, and a gap in front of the offset is filled with zeros. -/
def overwrite (old : Octets) (offset : Nat) (data : Octets) : Octets :=
  old.take offset ++ List.replicate (offset - old.length) 0 ++ data ++
    old.drop (offset + data.length)

/-- The tree after octets have been written into the file at a location. Where no file stands,
nothing changes. -/
def writeAt (t : FileTree) (loc : Location) (offset : Nat) (data : Octets) : FileTree :=
  match t.node? loc with
  | some (.file mode (.octets old)) => t.put loc (.file mode (.octets (overwrite old offset data)))
  | _ => t

/-! ## The view -/

theorem lookup_replace (loc other : Location) (node : Node) (es : List (Location × Node)) :
    lookup other (replace loc node es) =
      if other = loc ∧ loc ∈ es.map Prod.fst then some node else lookup other es := by
  induction es with
  | nil => simp [replace, lookup]
  | cons e es ih =>
      obtain ⟨l, n⟩ := e
      have step : lookup other (replace loc node ((l, n) :: es)) =
          if (if l = loc then loc else l) = other then some (if l = loc then node else n)
          else lookup other (replace loc node es) := by
        by_cases hl : l = loc <;> simp [replace, lookup, hl]
      rw [step, ih]
      by_cases hl : l = loc
      · subst hl
        by_cases ho : l = other <;> simp_all [lookup, eq_comm]
      · by_cases ho : other = loc
        · subst ho
          have hmem : other ∈ ((l, n) :: es).map Prod.fst ↔ other ∈ es.map Prod.fst := by
            rw [List.map_cons, List.mem_cons]
            exact ⟨fun h => h.resolve_left fun e => hl e.symm, Or.inr⟩
          simp only [hl, if_false, lookup, hmem]
        · by_cases hlo : l = other <;> simp [hl, ho, hlo, lookup]

theorem lookup_eq_none_iff (loc : Location) (es : List (Location × Node)) :
    lookup loc es = none ↔ loc ∉ es.map Prod.fst := by
  induction es with
  | nil => simp [lookup]
  | cons e es ih =>
      obtain ⟨l, n⟩ := e
      by_cases h : l = loc
      · simp [lookup, h]
      · simp only [lookup, h, if_false, ih, List.map_cons, List.mem_cons, not_or]
        exact ⟨fun hm => ⟨fun he => h he.symm, hm⟩, fun hm => hm.2⟩

theorem lookup_append (loc : Location) (es fs : List (Location × Node)) :
    lookup loc (es ++ fs) = (lookup loc es).or (lookup loc fs) := by
  induction es with
  | nil => simp [lookup]
  | cons e es ih =>
      obtain ⟨l, n⟩ := e
      by_cases h : l = loc <;> simp [lookup, h, ih]

@[simp]
theorem sight_put (t : FileTree) (loc : Location) (node : Node) :
    (t.put loc node).sight = t.sight := by
  unfold put
  split <;> rfl

@[simp]
theorem sight_writeAt (t : FileTree) (loc : Location) (offset : Nat) (data : Octets) :
    (t.writeAt loc offset data).sight = t.sight := by
  unfold writeAt
  split
  · exact sight_put _ _ _
  · rfl

/-- The root is always a directory. -/
@[simp]
theorem node?_root (t : FileTree) : t.node? [] = some .directory := by simp [node?]

/-- Putting a node somewhere changes the view there and nowhere else. -/
theorem node?_put (t : FileTree) (loc other : Location) (node : Node) (h : loc ≠ []) :
    (t.put loc node).node? other = if other = loc then some node else t.node? other := by
  unfold node?
  by_cases hr : other = []
  · subst hr
    simp [Ne.symm h]
  · simp only [hr, if_false]
    unfold put
    split
    · rename_i hm
      simp only
      rw [lookup_replace]
      simp [hm]
    · rename_i hm
      simp only
      rw [lookup_append]
      by_cases ho : other = loc
      · subst ho
        rw [(lookup_eq_none_iff _ _).mpr hm]
        simp [lookup]
      · have hl : loc ≠ other := fun e => ho e.symm
        simp [lookup, hl, ho]

/-- Erasing a location changes the view there and nowhere else. -/
theorem node?_erase (t : FileTree) (loc other : Location) (h : other ≠ []) :
    (t.erase loc).node? other = if other = loc then none else t.node? other := by
  simp only [node?, h, if_false, erase]
  induction t.entries with
  | nil => simp [lookup]
  | cons e es ih =>
      obtain ⟨l, n⟩ := e
      by_cases hl : l = loc
      · subst hl
        by_cases ho : other = l
        · subst ho
          simp only [if_true] at ih ⊢
          simpa [List.filter_cons] using ih
        · simp only [ho, if_false] at ih ⊢
          simpa [List.filter_cons, lookup, Ne.symm ho] using ih
      · by_cases ho : l = other
        · subst ho
          simp [hl, lookup]
        · simpa [List.filter_cons, hl, lookup, ho] using ih

end FileTree

end ParallelShell
