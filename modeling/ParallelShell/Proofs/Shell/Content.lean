import ParallelShell.Proofs.Program.Load
import ParallelShell.Proofs.Shell.Commands

set_option autoImplicit false

/-! # Shells whose files differ in what they hold

While a shell goes through a line, the programs it has started write into the targets of their
commands. `Shell.SameBut` relates a shell to another one that has seen other writes, or none, and
whose programs may have ended already: what the files of `W` hold may differ, and so may the
programs that are running, as long as none of them is executed from a file of `W` or writes into
another one.

Such shells do the same, step by step, as long as every target is in `W` (`openTarget_sameBut`) and
no start looks into a file of `W` (`carryOut_sameBut`). `Shell.Clear` says this of all the
commands that are reached.
-/

namespace ParallelShell

variable {W : Location → Prop} {earlier : List Launch}

/-- A program that is executed from a file outside of `W`, and writes into no other file. -/
structure Launch.KeepsTo (W : Location → Prop) (l : Launch) : Prop where
  image : ¬ W l.image.loc
  destination : ∀ loc, l.destination = .file loc → W loc

/-- The programs that are running are some earlier ones, but for those that keep to `W`. -/
def System.RunsBesides (s : System) (W : Location → Prop) (earlier : List Launch) : Prop :=
  ∀ l, ¬ l.KeepsTo W → (l ∈ s.running ↔ l ∈ earlier)

/-- **The same but for what some files hold**, and for programs that keep to these files. As the
number of programs may differ, what the system grants must not depend on it. -/
structure Shell.SameBut (W : Location → Prop) (earlier : List Launch) (s t : Shell) : Prop where
  searchPath : s.searchPath = t.searchPath
  directory : s.system.directory = t.system.directory
  supply : s.system.supply = t.system.supply
  fixed : t.system.supply.IsFixed
  programPath : s.system.programPath = t.system.programPath
  tree : FileTree.SameBut W s.system.tree t.system.tree
  left : s.system.RunsBesides W earlier
  right : t.system.RunsBesides W earlier

namespace System

theorem isExecuted_of_runsBesides {s : System} (h : s.RunsBesides W earlier) {loc : Location}
    (hw : W loc) : s.isExecuted loc = earlier.any fun l => l.image.loc = loc := by
  have hmem : ∀ l : Launch, l.image.loc = loc → (l ∈ s.running ↔ l ∈ earlier) :=
    fun l hl => h l fun hk => hk.image (hl ▸ hw)
  rw [isExecuted, Bool.eq_iff_iff]
  simp only [List.any_eq_true, decide_eq_true_eq]
  exact exists_congr fun l => and_congr_left (hmem l)

theorem isWritten_of_runsBesides {s : System} (h : s.RunsBesides W earlier) {loc : Location}
    (hw : ¬ W loc) : s.isWritten loc = earlier.any fun l => l.destination = .file loc := by
  have hmem : ∀ l : Launch, l.destination = .file loc → (l ∈ s.running ↔ l ∈ earlier) :=
    fun l hl => h l fun hk => hw (hk.destination loc hl)
  rw [isWritten, Bool.eq_iff_iff]
  simp only [List.any_eq_true, decide_eq_true_eq]
  exact exists_congr fun l => and_congr_left (hmem l)

theorem RunsBesides.cons {s : System} (h : s.RunsBesides W earlier) {launch : Launch}
    (hl : launch.KeepsTo W) :
    System.RunsBesides { s with running := launch :: s.running } W earlier := by
  intro l hw
  have hne : l ≠ launch := fun heq => hw (heq ▸ hl)
  simpa only [List.mem_cons, hne, false_or] using h l hw

theorem RunsBesides.ended {s : System} (h : s.RunsBesides W earlier) {launch : Launch}
    (hl : launch.KeepsTo W) : (s.ended launch).RunsBesides W earlier := by
  intro l hw
  have hne : l ≠ launch := fun heq => hw (heq ▸ hl)
  exact (List.mem_erase_of_ne hne).trans (h l hw)

def startFiles (s : System) (path : Text) (arguments : List Text) (into : Destination) :
    List Location :=
  if arguments.any Path.hasNul then []
  else
    match s.supply.refusal? s.running.length with
    | some _ => []
    | none =>
      Image.opened s.tree s.directory (fun loc => into = .file loc || s.isWritten loc)
        s.programPath path (arguments.map Text.encode)

/-- **What a start comes to** depends on nothing but the files it looks into. -/
theorem start_eq {s t : System} {path : Text} {arguments : List Text} {into : Destination}
    (hdir : s.directory = t.directory)
    (hrefusal : s.supply.refusal? s.running.length = t.supply.refusal? t.running.length)
    (hpath : s.programPath = t.programPath)
    (hopens : Image.OpensAlike t.tree s.tree t.directory
      (fun loc => into = .file loc || t.isWritten loc)
      (fun loc => into = .file loc || s.isWritten loc) W)
    (hf : ∀ loc ∈ t.startFiles path arguments into, ¬ W loc) :
    s.start path arguments into = t.start path arguments into := by
  unfold startFiles at hf
  unfold start
  split
  · rfl
  · rename_i hnul
    rw [hrefusal]
    cases hr : t.supply.refusal? t.running.length with
    | some e => rfl
    | none =>
        simp only [hnul, hr, if_false, Bool.false_eq_true] at hf
        rw [hdir, hpath]
        dsimp only
        rw [Image.load_eq hopens hf]

/-- The image of a program that is started is one of the files that were looked into, and its output
goes where it was meant to go. -/
theorem start_eq_ok {s : System} {path : Text} {arguments : List Text} {into : Destination}
    {launch : Launch} (h : s.start path arguments into = .ok launch) :
    launch.image.loc ∈ s.startFiles path arguments into ∧ launch.destination = into := by
  unfold start at h
  unfold startFiles
  split at h
  · cases h
  · rename_i hnul
    rw [if_neg hnul]
    cases hrefusal : s.supply.refusal? s.running.length with
    | some e =>
        rw [hrefusal] at h
        cases h
    | none =>
        rw [hrefusal] at h
        dsimp only at h
        split at h
        · cases h
        · rename_i image hload
          injection h with h
          subst h
          exact ⟨Image.loc_mem_opened hload, rfl⟩

end System

namespace Shell

/-- The file that the target of a command names. -/
def targetFile? (s : Shell) (c : Command) : Option Location :=
  c.target.bind s.system.targetFile?

def startFiles (s : Shell) (c : Command) : List Location :=
  match s.openTarget c.target with
  | .error _ => []
  | .ok (s, into) =>
    match s.meaning c.name with
    | .program path => s.system.startFiles path (c.name :: c.operands) into
    | _ => []

/-- **Commands that keep apart what is written and what is started**: the files that the targets
name are in `W`, and those that are looked into to start a program are not. -/
def Clear (W : Location → Prop) (s : Shell) (cs : List Command) : Prop :=
  ∀ x ∈ s.reached cs,
    (∀ loc ∈ x.1.targetFile? x.2, W loc) ∧ ∀ loc ∈ x.1.startFiles x.2, ¬ W loc

theorem targetFile?_of_openTarget {s s' : Shell} {c : Command} {loc : Location}
    (h : s.openTarget c.target = .ok (s', .file loc)) : s.targetFile? c = some loc := by
  rcases openTarget_eq_ok h with ⟨-, hi, -⟩ | ⟨_, _, _, -, -, hi, -⟩ | ⟨path, _, _, ht, hf, hi, -⟩
  · cases hi
  · cases hi
  · obtain rfl := Destination.file.inj hi
    rw [targetFile?, ht, Option.bind_some, hf]

/-! ## Step by step -/

section

variable {s t : Shell}

theorem SameBut.refl (W : Location → Prop) (s : Shell) (h : s.system.supply.IsFixed) :
    SameBut W s.system.running s s where
  searchPath := rfl
  directory := rfl
  supply := rfl
  fixed := h
  programPath := rfl
  tree := FileTree.SameBut.refl W _
  left := fun _ _ => Iff.rfl
  right := fun _ _ => Iff.rfl

theorem SameBut.writeAt (h : SameBut W earlier s t) {loc : Location} (hloc : W loc) (offset : Nat)
    (data : Octets) :
    SameBut W earlier
      { s with system := { s.system with tree := s.system.tree.writeAt loc offset data } } t :=
  { h with tree := h.tree.writeAt hloc offset data }

theorem SameBut.ended (h : SameBut W earlier s t) {launch : Launch} (hl : launch.KeepsTo W) :
    SameBut W earlier (s.ended launch) t :=
  { h with left := h.left.ended hl }

theorem SameBut.symm (h : SameBut W earlier s t) : SameBut W earlier t s where
  searchPath := h.searchPath.symm
  directory := h.directory.symm
  supply := h.supply.symm
  fixed := h.supply ▸ h.fixed
  programPath := h.programPath.symm
  tree := h.tree.symm
  left := h.right
  right := h.left

theorem SameBut.notify (h : SameBut W earlier s t) {into : Destination}
    (hinto : ∀ loc, into = .file loc → W loc) :
    SameBut W earlier (s.notify into) (t.notify into) := by
  cases into with
  | inherited => exact h
  | device d => exact h
  | file loc =>
      have hloc : W loc := hinto loc rfl
      exact ((h.writeAt hloc 0 Fault.notice).symm.writeAt hloc 0 Fault.notice).symm

theorem SameBut.withRunning (h : SameBut W earlier s t) {launch : Launch}
    (hl : launch.KeepsTo W) :
    SameBut W earlier (s.withRunning launch) (t.withRunning launch) :=
  { h with left := h.left.cons hl, right := h.right.cons hl }

/-- The same can be refused. -/
theorem SameBut.refusal?_eq (h : SameBut W earlier s t) :
    s.system.supply.refusal? s.system.running.length =
      t.system.supply.refusal? t.system.running.length := by
  rw [h.supply]
  exact h.fixed.refusal?_eq _ _

theorem SameBut.meaning (h : SameBut W earlier s t) (name : Text) :
    s.meaning name = t.meaning name := by
  unfold Shell.meaning program?
  rw [h.searchPath, h.directory, SearchPath.find?_eq (FileTree.isExecutable_eq h.tree _)]

/-- Two outcomes of a step that agree but for what some files hold. -/
def StepsAlike (W : Location → Prop) (earlier : List Launch) {α : Type} (a b : Shell × α) : Prop :=
  SameBut W earlier a.1 b.1 ∧ a.2 = b.2

end

end Shell

namespace System

def emptyFile (s : System) (loc : Location) (mode : Mode) : Except Cause (System × Destination) :=
  if !mode.mayWrite then .error (.errno .permissionDenied)
  else if s.isExecuted loc then .error (.errno .textBusy)
  else .ok ({ s with tree := s.tree.put loc (.file mode.afterWrite (.octets [])) }, .file loc)

section

variable {β : Type} {told : Mode → β} {s t : System}

/-- Two systems that have become what they are by putting something into their trees, and these are
still alike. -/
def PutAlike (told : Mode → β) (W : Location → Prop) (s t : System) (a b : System × Destination) :
    Prop :=
  FileTree.AlikeBut told W a.1.tree b.1.tree ∧ a.1 = { s with tree := a.1.tree } ∧
    b.1 = { t with tree := b.1.tree } ∧ a.2 = b.2

theorem emptyFile_alikeBut (htree : FileTree.AlikeBut told W s.tree t.tree)
    (htold : Mode.Tells told) {loc : Location} (hloc : loc ≠ [])
    (hexec : s.isExecuted loc = t.isExecuted loc) {mode mode' : Mode}
    (hmode : mode = mode' ∨ (W loc ∧ told mode = told mode')) :
    Agree (PutAlike told W s t) (s.emptyFile loc mode) (t.emptyFile loc mode') := by
  have hsame : told mode = told mode' := hmode.elim (congrArg told) And.right
  unfold emptyFile
  rw [hexec, htold.mayWrite hsame]
  split
  · exact .error _
  split
  · exact .error _
  refine .ok ⟨?_, rfl, rfl, rfl⟩
  rcases hmode with rfl | ⟨hw, -⟩
  · exact htree.put hloc _
  · exact htree.putFile hloc hw (htold.afterWrite _ _ hsame) _ _

/-- **A file is opened for output alike**, if the one that is there is executed by a running program
in both cases, or in none. -/
theorem openFile_alikeBut (htree : FileTree.AlikeBut told W s.tree t.tree)
    (htold : Mode.Tells told) (hdir : s.directory = t.directory) {path : Text}
    (hexec : ∀ loc ∈ t.targetFile? path, s.isExecuted loc = t.isExecuted loc) :
    Agree (PutAlike told W s t) (s.openFile path) (t.openFile path) := by
  have hl : Agree (Found.AlikeBut told W) (s.tree.locate true s.directory path)
      (t.tree.locate true t.directory path) :=
    hdir ▸ FileTree.locate_alikeBut htree true t.directory path
  have hstands : ∀ f, t.tree.locate true t.directory path = .ok f → f.Stands t.tree :=
    fun f hf => FileTree.stands_of_locate hf
  unfold targetFile? at hexec
  unfold openFile
  generalize s.tree.locate true s.directory path = a at hl ⊢
  generalize t.tree.locate true t.directory path = b at hl hexec hstands ⊢
  cases hl with
  | error e => exact .error e
  | @ok x y hxy =>
      have hy := hstands y rfl
      cases hxy with
      | @file loc mode mode' c c' hloc hmode =>
          exact emptyFile_alikeBut htree htold (FileTree.ne_nil_of_node?_file hy) (hexec loc rfl)
            (Or.inr ⟨hloc, hmode⟩)
      | refl =>
          cases x with
          | directory loc => exact .error _
          | device loc d => exact .ok ⟨htree, rfl, rfl, rfl⟩
          | absent loc name => exact .ok ⟨htree.put (List.cons_ne_nil _ _) _, rfl, rfl, rfl⟩
          | file loc mode c =>
              exact emptyFile_alikeBut htree htold (FileTree.ne_nil_of_node?_file hy)
                (hexec loc rfl) (Or.inl rfl)

end

/-- A file is opened for output alike, if it is one of `W`. -/
theorem openFile_sameBut {s t : Shell} (h : Shell.SameBut W earlier s t) {path : Text}
    (hw : ∀ loc ∈ t.system.targetFile? path, W loc) :
    Agree (fun a b => Shell.SameBut W earlier { s with system := a.1 } { t with system := b.1 } ∧
      a.2 = b.2) (s.system.openFile path) (t.system.openFile path) := by
  have hexec : ∀ loc ∈ t.system.targetFile? path,
      s.system.isExecuted loc = t.system.isExecuted loc := fun loc hloc => by
    rw [isExecuted_of_runsBesides h.left (hw loc hloc),
      isExecuted_of_runsBesides h.right (hw loc hloc)]
  have hput := openFile_alikeBut (FileTree.sameBut_iff_alikeBut.mp h.tree) Mode.tells_id
    h.directory hexec
  refine hput.mono fun a b ⟨htree, ha, hb, hinto⟩ => ⟨?_, hinto⟩
  rw [ha, hb]
  exact { h with tree := FileTree.sameBut_iff_alikeBut.mpr htree }

end System

namespace Shell

variable {s t : Shell}

/-- **A target is opened alike**, if it names a file of `W`. -/
theorem openTarget_sameBut (h : SameBut W earlier s t) {c : Command}
    (hw : ∀ loc ∈ t.targetFile? c, W loc) :
    Agree (StepsAlike W earlier) (s.openTarget c.target) (t.openTarget c.target) := by
  unfold targetFile? at hw
  cases ht : c.target with
  | none => exact .ok ⟨h, rfl⟩
  | some path =>
      rw [ht] at hw
      have ho := System.openFile_sameBut h hw
      simp only [openTarget]
      generalize s.system.openFile path = a at ho ⊢
      generalize t.system.openFile path = b at ho ⊢
      cases ho with
      | error e => exact .error _
      | ok hab => exact .ok hab

/-- Where starts come to the same, programs are started alike. -/
theorem startProgram_agree {R : Shell → Shell → Prop} {path : Text} {c : Command}
    {into : Destination} (hcopying : s.system.supply.copying = t.system.supply.copying)
    (hstart : s.system.start path (c.name :: c.operands) into =
      t.system.start path (c.name :: c.operands) into)
    (hR : ∀ launch, t.system.start path (c.name :: c.operands) into = .ok launch →
      R (s.withRunning launch) (t.withRunning launch)) :
    Agree (fun a b => R a.1 b.1 ∧ a.2 = b.2) (s.startProgram path c into)
      (t.startProgram path c into) := by
  have hcopy : s.system.copyTarget into = t.system.copyTarget into := by
    unfold System.copyTarget
    rw [hcopying]
  unfold startProgram
  rw [hcopy, hstart]
  cases t.system.copyTarget into with
  | error cause => exact .error _
  | ok _ =>
      cases hl : t.system.start path (c.name :: c.operands) into with
      | error cause => exact .error _
      | ok launch => exact .ok ⟨hR launch hl, rfl⟩

/-- A program is started alike, if no file of `W` is looked into. -/
theorem startProgram_sameBut (h : SameBut W earlier s t) {path : Text} {c : Command}
    {into : Destination} (hinto : ∀ loc, into = .file loc → W loc)
    (hf : ∀ loc ∈ t.system.startFiles path (c.name :: c.operands) into, ¬ W loc) :
    Agree (StepsAlike W earlier) (s.startProgram path c into) (t.startProgram path c into) := by
  -- outside of `W`, only the earlier programs can have a file open, on both sides
  have hwritten : ∀ loc, ¬ W loc →
      (decide (into = .file loc) || t.system.isWritten loc) =
        (decide (into = .file loc) || s.system.isWritten loc) := by
    intro loc hloc
    rw [System.isWritten_of_runsBesides h.left hloc,
      System.isWritten_of_runsBesides h.right hloc]
  refine startProgram_agree (congrArg Supply.copying h.supply)
    (System.start_eq h.directory h.refusal?_eq h.programPath
      (Image.opensAlike_of_sameBut h.tree.symm hwritten) hf) fun launch hl => ?_
  obtain ⟨himage, hdest⟩ := System.start_eq_ok hl
  exact h.withRunning ⟨hf _ himage, fun loc hloc => hinto loc (hdest ▸ hloc)⟩

/-- Where paths lead to the same directories, built-ins run alike. -/
theorem runBuiltIn_agree {R : Shell → Shell → Prop} (h : R s t)
    (hfind : ∀ path, s.system.tree.findDirectory s.system.directory path =
      t.system.tree.findDirectory t.system.directory path)
    (hdirectory : ∀ loc, R { s with system := { s.system with directory := loc } }
      { t with system := { t.system with directory := loc } })
    (hsearchPath : ∀ r, R { s with searchPath := r } { t with searchPath := r })
    (b : BuiltIn) (operands : List Text) :
    Agree (fun a b => R a.1 b.1 ∧ a.2 = b.2) (s.runBuiltIn b operands)
      (t.runBuiltIn b operands) := by
  unfold runBuiltIn
  split
  · exact .ok ⟨h, rfl⟩
  · exact .error _
  · rename_i path
    unfold changeDirectory
    rw [hfind]
    cases t.system.tree.findDirectory t.system.directory path with
    | error cause => exact .error _
    | ok loc => exact .ok ⟨hdirectory loc, rfl⟩
  · exact .error _
  · exact .ok ⟨hsearchPath _, rfl⟩

theorem runBuiltIn_sameBut (h : SameBut W earlier s t) (b : BuiltIn) (operands : List Text) :
    Agree (StepsAlike W earlier) (s.runBuiltIn b operands) (t.runBuiltIn b operands) := by
  refine runBuiltIn_agree h (fun path => ?_) (fun _ => { h with directory := rfl })
    (fun _ => { h with searchPath := rfl }) b operands
  rw [h.directory, FileTree.findDirectory_eq h.tree]

/-- A program that is started keeps to `W`, if its output goes into a file of `W`, or into none, and
no file of `W` is looked into. -/
theorem keepsTo_of_carryOut {c : Command} {into : Destination} {launch : Launch}
    (h : t.carryOut c into = .ok (s, .started launch)) (hinto : ∀ loc, into = .file loc → W loc)
    (hf : ∀ path, t.meaning c.name = .program path →
      ∀ loc ∈ t.system.startFiles path (c.name :: c.operands) into, ¬ W loc) :
    launch.KeepsTo W := by
  rcases carryOut_eq_ok h with ⟨path, l, hm, hstart, -, ha⟩ | ⟨_, _, _, ha⟩ |
    ⟨_, _, _, _, _, _, ha⟩ | ⟨_, _, ha⟩
  · obtain rfl := Action.started.inj ha
    obtain ⟨himage, hdest⟩ := System.start_eq_ok hstart
    exact ⟨hf path hm _ himage, fun loc hloc => hinto loc (hdest ▸ hloc)⟩
  all_goals cases ha

/-- **A command is carried out alike**, if its output goes into a file of `W`, or into none, and no
file of `W` is looked into. -/
theorem carryOut_sameBut (h : SameBut W earlier s t) {c : Command} {into : Destination}
    (hinto : ∀ loc, into = .file loc → W loc)
    (hf : ∀ path, t.meaning c.name = .program path →
      ∀ loc ∈ t.system.startFiles path (c.name :: c.operands) into, ¬ W loc) :
    Agree (StepsAlike W earlier) (s.carryOut c into) (t.carryOut c into) := by
  unfold carryOut
  rw [h.meaning]
  cases hm : t.meaning c.name with
  | program path => exact startProgram_sameBut h hinto (hf path hm)
  | builtIn b => exact runBuiltIn_sameBut h b c.operands
  | unknown => exact .error _

end Shell

end ParallelShell
