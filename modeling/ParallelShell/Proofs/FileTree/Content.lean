import ParallelShell.SearchPath

set_option autoImplicit false

/-! # Trees that differ in what some files hold

A program that writes into a file changes what the file holds and nothing else: no place is taken
or given up, and no mode, link or directory changes. So nearly everything that is asked of a file
tree has the same answer before and after.

`FileTree.SameBut W t u` says that two trees are the same but for the contents of files at places
in `W`. Opening a file for output may change its mode too, and `FileTree.AlikeBut told W t u`
allows for that: the modes of such files may differ in what is not `told`. Walking a path in the two
leads to the same place (`walk_alikeBut`), and whatever is only about places and rights is equal:
whether a path names a directory (`AlikeBut.findDirectory_eq`) or an executable file
(`AlikeBut.isExecutable_eq`), and where a search path finds a name (`SearchPath.find?_eq`).

Whether a walk leads to a file, to a device or to a free place, that is what stands there
(`stands_of_locate`). In particular no file is found at the root.
-/

namespace ParallelShell

/-- Two results that are the same refusal, or two answers that are related. -/
inductive Agree {ε α : Type} (R : α → α → Prop) : Except ε α → Except ε α → Prop
  | error (e : ε) : Agree R (.error e) (.error e)
  | ok {a b : α} : R a b → Agree R (.ok a) (.ok b)

theorem Agree.mono {ε α : Type} {R S : α → α → Prop} {x y : Except ε α} (h : Agree R x y)
    (hR : ∀ a b, R a b → S a b) : Agree S x y := by
  cases h with
  | error e => exact .error e
  | ok hab => exact .ok (hR _ _ hab)

namespace Mode

theorem hasAny_afterWrite {bits : Nat} (h : 0o1777 &&& bits = bits) (mode : Mode) :
    hasAny (afterWrite mode) bits = hasAny mode bits := by
  have h' : 0o3777 &&& bits = bits := by
    rw [← h, ← Nat.and_assoc]
    rfl
  unfold hasAny afterWrite
  split
  · rw [Nat.and_assoc, h]
  · rw [Nat.and_assoc, h']

/-- A file that is written keeps the right to be executed, or the lack of it. -/
theorem mayExecute_afterWrite (mode : Mode) : (afterWrite mode).mayExecute = mode.mayExecute :=
  hasAny_afterWrite rfl mode

theorem mayWrite_afterWrite (mode : Mode) : (afterWrite mode).mayWrite = mode.mayWrite :=
  hasAny_afterWrite rfl mode

/-- What a write takes away from a mode is gone after the first one. -/
@[simp]
theorem afterWrite_afterWrite (mode : Mode) : afterWrite (afterWrite mode) = afterWrite mode := by
  have hgroup : hasAny (afterWrite mode) 0o010 = hasAny mode 0o010 := hasAny_afterWrite rfl mode
  rw [afterWrite, hgroup]
  unfold afterWrite
  split <;> rw [Nat.and_assoc] <;> rfl

/-- A mode without marks is the same after a write. -/
theorem afterWrite_of_unmarked {mode : Mode} (h : mode < 0o2000) : afterWrite mode = mode := by
  unfold afterWrite
  split
  · exact Nat.and_two_pow_sub_one_of_lt_two_pow (n := 10) h
  · exact Nat.and_two_pow_sub_one_of_lt_two_pow (n := 11) (Nat.lt_trans h (by decide))

/-- What matters of a mode to the shell. -/
def rights (mode : Mode) : Bool × Bool := (mode.mayWrite, mode.mayExecute)

theorem rights_afterWrite (mode : Mode) : rights (afterWrite mode) = rights mode := by
  rw [rights, mayWrite_afterWrite, mayExecute_afterWrite, rights]

/-- What is told of a mode is all that matters. -/
structure Tells {β : Type} (told : Mode → β) : Prop where
  rights : ∀ mode mode', told mode = told mode' → mode.rights = mode'.rights
  afterWrite : ∀ mode mode', told mode = told mode' → told mode.afterWrite = told mode'.afterWrite

theorem Tells.mayWrite {β : Type} {told : Mode → β} (h : Tells told) {mode mode' : Mode}
    (hmode : told mode = told mode') : mode.mayWrite = mode'.mayWrite :=
  (Prod.mk.inj (h.rights _ _ hmode)).1

theorem Tells.mayExecute {β : Type} {told : Mode → β} (h : Tells told) {mode mode' : Mode}
    (hmode : told mode = told mode') : mode.mayExecute = mode'.mayExecute :=
  (Prod.mk.inj (h.rights _ _ hmode)).2

theorem tells_id : Tells id where
  rights _ _ h := congrArg Mode.rights h
  afterWrite _ _ h := congrArg Mode.afterWrite h

theorem tells_rights : Tells rights where
  rights _ _ h := h
  afterWrite _ _ h := by rw [rights_afterWrite, rights_afterWrite, h]

end Mode

/-- Two ends of a walk that differ at most in what a file of `W` holds. -/
inductive Found.SameBut (W : Location → Prop) : Found → Found → Prop
  | refl (f : Found) : Found.SameBut W f f
  | file {loc : Location} (mode : Mode) (c c' : Content) :
      W loc → Found.SameBut W (.file loc mode c) (.file loc mode c')

/-- Two ends of a walk that differ at most in what a file of `W` holds, and in what is not
`told` of its mode. -/
inductive Found.AlikeBut {β : Type} (told : Mode → β) (W : Location → Prop) : Found → Found → Prop
  | refl (f : Found) : Found.AlikeBut told W f f
  | file {loc : Location} {mode mode' : Mode} (c c' : Content) :
      W loc → told mode = told mode' →
      Found.AlikeBut told W (.file loc mode c) (.file loc mode' c')

theorem Found.AlikeBut.sameBut {W : Location → Prop} {f g : Found} (h : Found.AlikeBut id W f g) :
    Found.SameBut W f g := by
  cases h with
  | refl f => exact .refl f
  | file c c' hw hmode =>
      cases hmode
      exact .file _ c c' hw

namespace FileTree

/-- **The same but for what some files hold.** -/
def SameBut (W : Location → Prop) (t u : FileTree) : Prop :=
  ∀ loc, t.node? loc = u.node? loc ∨
    (W loc ∧ ∃ mode c c', t.node? loc = some (.file mode c) ∧ u.node? loc = some (.file mode c'))

/-- **The same but for what some files hold**, and for what is not `told` of their modes. -/
def AlikeBut {β : Type} (told : Mode → β) (W : Location → Prop) (t u : FileTree) : Prop :=
  ∀ loc, t.node? loc = u.node? loc ∨
    (W loc ∧ ∃ mode mode' c c', told mode = told mode' ∧
      t.node? loc = some (.file mode c) ∧ u.node? loc = some (.file mode' c'))

variable {W : Location → Prop} {t u : FileTree}

theorem ne_nil_of_node?_file {loc : Location} {mode : Mode} {content : Content}
    (h : t.node? loc = some (.file mode content)) : loc ≠ [] := by
  rintro rfl
  simp at h

/-- Writing into a file changes that file and nothing else. -/
theorem node?_writeAt (t : FileTree) (loc other : Location) (offset : Nat) (data : Octets) :
    (t.writeAt loc offset data).node? other =
      match t.node? loc with
      | some (.file mode (.octets old)) =>
        if other = loc then some (.file mode (.octets (overwrite old offset data)))
        else t.node? other
      | _ => t.node? other := by
  unfold writeAt
  cases hn : t.node? loc with
  | none => rfl
  | some node =>
      cases node with
      | file mode content =>
          cases content with
          | octets old => exact node?_put _ _ _ _ (ne_nil_of_node?_file hn)
          | program => rfl
      | _ => rfl

section

variable {β : Type} {told : Mode → β}

theorem AlikeBut.refl (told : Mode → β) (W : Location → Prop) (t : FileTree) :
    AlikeBut told W t t := fun _ => Or.inl rfl

theorem AlikeBut.symm (h : AlikeBut told W t u) : AlikeBut told W u t := by
  intro loc
  rcases h loc with hu | ⟨hw, mode, mode', c, c', hmode, ht, hu⟩
  · exact Or.inl hu.symm
  · exact Or.inr ⟨hw, mode', mode, c', c, hmode.symm, hu, ht⟩

theorem AlikeBut.put (h : AlikeBut told W t u) {loc : Location} (hloc : loc ≠ [])
    (node : Node) : AlikeBut told W (t.put loc node) (u.put loc node) := by
  intro other
  rw [node?_put t loc other node hloc, node?_put u loc other node hloc]
  by_cases ho : other = loc
  · simp [ho]
  · simpa [ho] using h other

/-- Two files may be put at a place of `W`. -/
theorem AlikeBut.putFile (h : AlikeBut told W t u) {loc : Location} (hloc : loc ≠ [])
    (hw : W loc) {mode mode' : Mode} (hmode : told mode = told mode') (c c' : Content) :
    AlikeBut told W (t.put loc (.file mode c)) (u.put loc (.file mode' c')) := by
  intro other
  rw [node?_put t loc other _ hloc, node?_put u loc other _ hloc]
  by_cases ho : other = loc
  · subst ho
    exact Or.inr ⟨hw, mode, mode', c, c', hmode, if_pos rfl, if_pos rfl⟩
  · simpa [ho] using h other

/-- A file of `W` may be replaced in one of the trees. -/
theorem AlikeBut.replace (h : AlikeBut told W t u) {loc : Location} (hw : W loc)
    {mode mode' : Mode} {c : Content} (hn : t.node? loc = some (.file mode c))
    (hmode : told mode' = told mode) (c' : Content) :
    AlikeBut told W (t.put loc (.file mode' c')) u := by
  intro other
  rw [node?_put t loc other _ (ne_nil_of_node?_file hn)]
  by_cases ho : other = loc
  · -- the file was there before, on both sides
    subst ho
    rw [if_pos rfl]
    rcases h other with hu | ⟨-, m, m', d, d', hm, ht, hu⟩
    · exact Or.inr ⟨hw, mode', mode, c', c, hmode, rfl, hu ▸ hn⟩
    · obtain ⟨rfl, -⟩ := Node.file.inj (Option.some.inj (ht.symm.trans hn))
      exact Or.inr ⟨hw, mode', m', c', d', hmode.trans hm, rfl, hu⟩
  · rw [if_neg ho]
    exact h other

/-- One may write into a file of `W` in one of the trees. -/
theorem AlikeBut.writeAt_left (h : AlikeBut told W t u) {loc : Location} (hw : W loc)
    (offset : Nat) (data : Octets) : AlikeBut told W (t.writeAt loc offset data) u := by
  unfold FileTree.writeAt
  split
  · rename_i hn
    exact h.replace hw hn rfl _
  · exact h

/-- One may write into any file in both of the trees. -/
theorem AlikeBut.writeAt (h : AlikeBut told W t u) (loc : Location) (offset : Nat)
    (data : Octets) :
    AlikeBut told W (t.writeAt loc offset data) (u.writeAt loc offset data) := by
  rcases h loc with heq | ⟨hw, -⟩
  · intro other
    rw [node?_writeAt, node?_writeAt, ← heq]
    split
    · by_cases ho : other = loc
      · exact Or.inl (by rw [if_pos ho, if_pos ho])
      · rw [if_neg ho, if_neg ho]
        exact h other
    · exact h other
  · exact ((h.writeAt_left hw offset data).symm.writeAt_left hw offset data).symm

end

theorem sameBut_iff_alikeBut : SameBut W t u ↔ AlikeBut id W t u := by
  refine forall_congr' fun loc => or_congr_right (and_congr_right fun _ => ?_)
  constructor
  · rintro ⟨mode, c, c', ht, hu⟩
    exact ⟨mode, mode, c, c', rfl, ht, hu⟩
  · rintro ⟨mode, _, c, c', rfl, ht, hu⟩
    exact ⟨mode, c, c', ht, hu⟩

theorem SameBut.refl (W : Location → Prop) (t : FileTree) : SameBut W t t := fun _ => Or.inl rfl

theorem SameBut.writeAt (h : SameBut W t u) {loc : Location} (hloc : W loc) (offset : Nat)
    (data : Octets) : SameBut W (t.writeAt loc offset data) u :=
  sameBut_iff_alikeBut.mpr ((sameBut_iff_alikeBut.mp h).writeAt_left hloc offset data)

theorem SameBut.symm (h : SameBut W t u) : SameBut W u t :=
  sameBut_iff_alikeBut.mpr (sameBut_iff_alikeBut.mp h).symm

/-! ## Walking -/

section

variable {β : Type} {told : Mode → β}

/-- The names that are left lead to the same place, if they do so after every link. -/
theorem descend_alikeBut (h : AlikeBut told W t u) (creating : Bool)
    {follow follow' : Location → Text → List Text → Except Errno Found}
    (hf : ∀ loc target rest,
      Agree (Found.AlikeBut told W) (follow loc target rest) (follow' loc target rest))
    (names : List Text) {found found' : Found} (hfound : Found.AlikeBut told W found found') :
    Agree (Found.AlikeBut told W) (descend t creating follow found names)
      (descend u creating follow' found' names) := by
  induction names generalizing found found' with
  | nil =>
      simp only [descend]
      exact .ok hfound
  | cons name rest ih =>
      cases hfound with
      | file c c' hw hmode =>
          simp only [descend]
          exact .error _
      | refl =>
          cases found with
          | file loc mode c =>
              simp only [descend]
              exact .error _
          | device loc d =>
              simp only [descend]
              exact .error _
          | absent loc n =>
              simp only [descend]
              exact .error _
          | directory loc =>
              simp only [descend]
              split
              · exact ih (.refl _)
              split
              · exact ih (.refl _)
              split
              · exact .error _
              split
              · exact .error _
              -- a name has to be looked up: this is where the trees may differ
              rcases h (name :: loc) with hn | ⟨hw, mode, mode', c, c', hmode, ht, hu⟩
              · rw [hn]
                cases u.node? (name :: loc) with
                | none =>
                    by_cases hr : rest.isEmpty = true
                    · simp only [hr, if_true]
                      exact .ok (.refl _)
                    · simp only [hr, if_false, Bool.false_eq_true]
                      exact .error _
                | some node =>
                    cases node with
                    | directory => exact ih (.refl _)
                    | file mode content => exact ih (.refl _)
                    | device d => exact ih (.refl _)
                    | link target => exact hf loc target rest
              · rw [ht, hu]
                exact ih (.file c c' hw hmode)

/-- **A path leads to the same place.** -/
theorem walk_alikeBut (h : AlikeBut told W t u) (creating : Bool) (links : Nat) (loc : Location)
    (names : List Text) :
    Agree (Found.AlikeBut told W) (t.walk creating links loc names)
      (u.walk creating links loc names) := by
  induction links generalizing loc names with
  | zero =>
      rw [walk, walk]
      exact descend_alikeBut h creating (fun _ _ _ => .error _) names (.refl _)
  | succ links ih =>
      rw [walk, walk]
      exact descend_alikeBut h creating (fun _ _ _ => ih _ _) names (.refl _)

theorem locate_alikeBut (h : AlikeBut told W t u) (creating : Bool) (directory : Location)
    (path : Text) :
    Agree (Found.AlikeBut told W) (t.locate creating directory path)
      (u.locate creating directory path) := by
  unfold locate
  split
  · exact .error _
  · have hw := walk_alikeBut h creating maxLinks (base directory path) (Path.names path)
    generalize t.walk creating maxLinks (base directory path) (Path.names path) = a at hw ⊢
    generalize u.walk creating maxLinks (base directory path) (Path.names path) = b at hw ⊢
    cases hw with
    | error e => exact .error _
    | ok hab => exact .ok hab

theorem find_alikeBut (h : AlikeBut told W t u) (directory : Location) (path : Text) :
    Agree (Found.AlikeBut told W) (t.find directory path) (u.find directory path) := by
  have hl := locate_alikeBut h false directory path
  unfold find
  generalize t.locate false directory path = a at hl ⊢
  generalize u.locate false directory path = b at hl ⊢
  cases hl with
  | error e => exact .error e
  | @ok x y hab =>
      cases hab with
      | file c c' hw hmode => exact .ok (.file c c' hw hmode)
      | refl =>
          cases x with
          | absent loc name => exact .error _
          | directory loc => exact .ok (.refl _)
          | file loc mode c => exact .ok (.refl _)
          | device loc d => exact .ok (.refl _)

theorem AlikeBut.isExecutable_eq (h : AlikeBut told W t u) (htold : Mode.Tells told)
    (directory : Location) (path : Text) :
    t.isExecutable directory path = u.isExecutable directory path := by
  have hf := find_alikeBut h directory path
  unfold isExecutable
  generalize t.find directory path = a at hf ⊢
  generalize u.find directory path = b at hf ⊢
  cases hf with
  | error e => rfl
  | ok hab =>
      cases hab with
      | refl => rfl
      | file _ _ _ hmode => exact htold.mayExecute hmode

theorem AlikeBut.findDirectory_eq (h : AlikeBut told W t u) (directory : Location)
    (path : Text) : t.findDirectory directory path = u.findDirectory directory path := by
  have hf := find_alikeBut h directory path
  unfold findDirectory
  generalize t.find directory path = a at hf ⊢
  generalize u.find directory path = b at hf ⊢
  cases hf with
  | error e => rfl
  | ok hab => cases hab <;> rfl

end

theorem find_sameBut (h : SameBut W t u) (directory : Location) (path : Text) :
    Agree (Found.SameBut W) (t.find directory path) (u.find directory path) :=
  (find_alikeBut (sameBut_iff_alikeBut.mp h) directory path).mono fun _ _ hab => hab.sameBut

theorem isExecutable_eq (h : SameBut W t u) (directory : Location) (path : Text) :
    t.isExecutable directory path = u.isExecutable directory path :=
  (sameBut_iff_alikeBut.mp h).isExecutable_eq Mode.tells_id directory path

theorem findDirectory_eq (h : SameBut W t u) (directory : Location) (path : Text) :
    t.findDirectory directory path = u.findDirectory directory path :=
  (sameBut_iff_alikeBut.mp h).findDirectory_eq directory path

end FileTree

/-- Where a search path finds a name depends on which files may be executed. -/
theorem SearchPath.find?_eq {t u : FileTree} {directory : Location}
    (h : ∀ path, t.isExecutable directory path = u.isExecutable directory path)
    (s : SearchPath) (name : Text) : s.find? t directory name = s.find? u directory name := by
  rw [SearchPath.find?, SearchPath.find?, funext h]

/-! ## What is found stands there -/

/-- What the end of a walk says about the tree. -/
def Found.Stands (t : FileTree) : Found → Prop
  | .directory _ => True
  | .file loc mode content => t.node? loc = some (.file mode content)
  | .device loc d => t.node? loc = some (.device d)
  | .absent loc name => t.node? (name :: loc) = none

/-- The same, if the walk has gone only through directories of some kind. -/
def Found.StandsIn (D : Location → Prop) (t : FileTree) : Found → Prop
  | .directory loc => D loc
  | .file loc mode content => t.node? loc = some (.file mode content)
  | .device loc d => t.node? loc = some (.device d)
  | .absent loc name => D loc ∧ t.node? (name :: loc) = none

theorem Found.StandsIn.stands {D : Location → Prop} {t : FileTree} {f : Found}
    (h : f.StandsIn D t) : f.Stands t := by
  cases f with
  | directory loc => trivial
  | file loc mode content => exact h
  | device loc d => exact h
  | absent loc name => exact h.2

namespace FileTree

/-- Directories that no walk leaves. -/
structure IsClosed (t : FileTree) (D : Location → Prop) : Prop where
  root : D []
  parent : ∀ loc, D loc → D loc.tail
  entry : ∀ loc name, D loc → t.node? (name :: loc) = some .directory → D (name :: loc)

variable {t : FileTree} {D : Location → Prop}

theorem IsClosed.base (h : t.IsClosed D) {directory : Location} (hdirectory : D directory)
    (path : Text) : D (base directory path) := by
  unfold FileTree.base
  split
  · exact h.root
  · exact hdirectory

theorem standsIn_of_descend (hD : t.IsClosed D) (creating : Bool)
    {follow : Location → Text → List Text → Except Errno Found}
    (hf : ∀ loc target rest f, D loc → follow loc target rest = .ok f → f.StandsIn D t)
    (names : List Text) {found f : Found} (hfound : found.StandsIn D t)
    (h : descend t creating follow found names = .ok f) : f.StandsIn D t := by
  induction names generalizing found with
  | nil =>
      simp only [descend, Except.ok.injEq] at h
      exact h ▸ hfound
  | cons name rest ih =>
      cases found with
      | file loc mode c => simp [descend] at h
      | device loc d => simp [descend] at h
      | absent loc n => simp [descend] at h
      | directory loc =>
          have hloc : D loc := hfound
          simp only [descend] at h
          split at h
          · exact ih hfound h
          split at h
          · have hs : Found.StandsIn D t (.directory loc.tail) := hD.parent loc hloc
            exact ih hs h
          split at h
          · cases h
          split at h
          · cases h
          cases hn : t.node? (name :: loc) with
          | none =>
              simp only [hn] at h
              split at h
              · injection h with h
                rw [← h]
                exact ⟨hloc, hn⟩
              · cases h
          | some node =>
              simp only [hn] at h
              cases node with
              | directory =>
                  have hs : Found.StandsIn D t (.directory (name :: loc)) :=
                    hD.entry loc name hloc hn
                  exact ih hs h
              | file mode content =>
                  have hs : Found.StandsIn D t (.file (name :: loc) mode content) := hn
                  exact ih hs h
              | device d =>
                  have hs : Found.StandsIn D t (.device (name :: loc) d) := hn
                  exact ih hs h
              | link target => exact hf _ _ _ _ hloc h

theorem standsIn_of_walk (hD : t.IsClosed D) (creating : Bool) (links : Nat) {loc : Location}
    {names : List Text} {f : Found} (hloc : D loc) (h : t.walk creating links loc names = .ok f) :
    f.StandsIn D t := by
  have hstart (loc : Location) (hloc : D loc) : Found.StandsIn D t (.directory loc) := hloc
  induction links generalizing loc names f with
  | zero =>
      rw [walk] at h
      refine standsIn_of_descend hD creating ?_ names (hstart loc hloc) h
      intro _ _ _ _ _ hfollow
      cases hfollow
  | succ links ih =>
      rw [walk] at h
      refine standsIn_of_descend hD creating ?_ names (hstart loc hloc) h
      intro _ _ _ _ hdir hfollow
      exact ih (hD.base hdir _) hfollow

theorem standsIn_of_locate (hD : t.IsClosed D) {creating : Bool} {directory : Location}
    {path : Text} {f : Found} (hdirectory : D directory)
    (h : t.locate creating directory path = .ok f) : f.StandsIn D t := by
  unfold locate at h
  split at h
  · cases h
  · split at h
    · cases h
    · rename_i hw
      injection h with h
      exact h ▸ standsIn_of_walk hD creating _ (hD.base hdirectory path) hw

/-- **What is found stands there.** -/
theorem stands_of_locate {creating : Bool} {directory : Location} {path : Text} {f : Found}
    (h : t.locate creating directory path = .ok f) : f.Stands t := by
  have hall : t.IsClosed fun _ => True := ⟨trivial, fun _ _ => trivial, fun _ _ _ _ => trivial⟩
  exact (standsIn_of_locate hall trivial h).stands

theorem node?_of_find {directory : Location} {path : Text} {loc : Location} {mode : Mode}
    {content : Content} (h : t.find directory path = .ok (.file loc mode content)) :
    t.node? loc = some (.file mode content) := by
  unfold find at h
  split at h
  · cases h
  · exact stands_of_locate (f := .file loc mode content) h

end FileTree

end ParallelShell
