import ParallelShell.Proofs.FileTree.Content
import ParallelShell.Program.Load

set_option autoImplicit false

/-! # The files that a start comes to

To start a program is to look into files: into the one that its path leads to and, if that is a
script, into the one of its interpreter, which may again be a script. `Image.opened` lists the
files that are looked into, and nothing else in a tree matters: two trees that are the same but for
some other files give the same image, or the same refusal (`load_eq`). The image itself is one of
the files listed (`loc_mem_opened`).

What a file holds is looked at only if it can be opened for execution (`Image.mayOpen`); of the
others, only the rights matter.
-/

namespace ParallelShell

namespace Image

/-- A name as a path to an interpreter; the empty one is none. -/
def interpreterPath? (name : Octets) : Option Text :=
  if name.isEmpty then none else Text.ofOctets? name

def interpreter? : Content → Option Text
  | .program => none
  | .octets data => (Interpreter.ofOctets? data).bind fun i => interpreterPath? i.path

/-- The files that are looked into behind a path, where some scripts may still lead on. -/
def files (t : FileTree) (directory : Location) : Nat → Text → List Location
  | scripts, path =>
    match t.find directory path with
    | .ok (.file loc mode content) =>
      loc ::
        match scripts, interpreter? content with
        | scripts + 1, some next => if mode.mayExecute then files t directory scripts next else []
        | _, _ => []
    | _ => []

/-- The files that are looked into behind a bare name: those in one directory after the other, up
to the one that decides. -/
def bareFiles (t : FileTree) (directory : Location) (isWritten : Location → Bool) (name : Text)
    (arguments : List Octets) : List Text → List Location
  | [] => []
  | d :: ds =>
    files t directory (maxScripts + 1) (Path.join d name) ++
      match loadFile t directory isWritten (Path.join d name) arguments with
      | .error (.errno e) =>
        if passesOn e then bareFiles t directory isWritten name arguments ds else []
      | _ => []

def opened (t : FileTree) (directory : Location) (isWritten : Location → Bool)
    (programPath : List Text) (path : Text) (arguments : List Octets) : List Location :=
  if !fits arguments then []
  else if path.contains Path.slash then files t directory (maxScripts + 1) path
  else bareFiles t directory isWritten path arguments programPath

theorem mem_files_of_find {t : FileTree} {directory : Location} {path : Text} {loc : Location}
    {mode : Mode} {content : Content} (h : t.find directory path = .ok (.file loc mode content))
    (scripts : Nat) : loc ∈ files t directory scripts path := by
  rw [files, h]
  exact List.mem_cons_self

/-- Behind a script that may be executed, its interpreter is looked into. -/
theorem mem_files_of_interpreter {t : FileTree} {directory : Location} {path next : Text}
    {loc other : Location} {mode : Mode} {content : Content} {scripts : Nat}
    (h : t.find directory path = .ok (.file loc mode content)) (hmode : mode.mayExecute = true)
    (hi : interpreter? content = some next) (hmem : other ∈ files t directory scripts next) :
    other ∈ files t directory (scripts + 1) path := by
  rw [files, h]
  simp only [hi, hmode, if_true]
  exact List.mem_cons_of_mem _ hmem

/-! ## What the image depends on -/

section

variable {W : Location → Prop} {t u : FileTree} {isWritten isWritten' : Location → Bool}
  {directory : Location}

/-- From a directory, files are opened for execution alike in two trees, unless they are in `W`. -/
def OpensAlike (t u : FileTree) (directory : Location) (isWritten isWritten' : Location → Bool)
    (W : Location → Prop) : Prop :=
  ∀ path, (∀ loc mode content, t.find directory path = .ok (.file loc mode content) → ¬ W loc) →
    openFile t directory isWritten path = openFile u directory isWritten' path

theorem opensAlike_of_sameBut (h : FileTree.SameBut W t u)
    (hw : ∀ loc, ¬ W loc → isWritten loc = isWritten' loc) :
    OpensAlike t u directory isWritten isWritten' W := by
  intro path hf
  have hfind := FileTree.find_sameBut h directory path
  unfold openFile
  generalize t.find directory path = a at hfind hf ⊢
  generalize u.find directory path = b at hfind ⊢
  cases hfind with
  | error cause => rfl
  | @ok found _ hab =>
      cases hab with
      | file mode c c' hloc => exact absurd hloc (hf _ _ _ rfl)
      | refl =>
          cases found with
          | file loc mode content => simp only [hw loc (hf loc mode content rfl)]
          | _ => rfl

def mayOpen (t : FileTree) (isWritten : Location → Bool) (loc : Location) : Bool :=
  match t.node? loc with
  | some (.file mode _) => mode.mayExecute && !isWritten loc
  | _ => false

/-- Two trees in which the rights are the same: only what files hold that can be opened makes a
difference. -/
theorem opensAlike_of_alikeBut {β : Type} {told : Mode → β} (h : FileTree.AlikeBut told W t u)
    (htold : Mode.Tells told) :
    OpensAlike t u directory isWritten isWritten
      fun loc => W loc ∧ mayOpen t isWritten loc = true := by
  intro path hf
  have hfind := FileTree.find_alikeBut h directory path
  have hstands : ∀ loc mode content, t.find directory path = .ok (.file loc mode content) →
      t.node? loc = some (.file mode content) := fun _ _ _ hl => FileTree.node?_of_find hl
  unfold openFile
  generalize t.find directory path = a at hfind hf hstands ⊢
  generalize u.find directory path = b at hfind ⊢
  cases hfind with
  | error cause => rfl
  | @ok found _ hab =>
      cases hab with
      | refl => rfl
      | @file loc mode mode' c c' hloc hmode =>
          have hclosed : mayOpen t isWritten loc ≠ true := fun hopen =>
            hf loc mode c rfl ⟨hloc, hopen⟩
          simp only [mayOpen, hstands loc mode c rfl] at hclosed
          cases hx : mode.mayExecute with
          | false => simp [← htold.mayExecute hmode, hx]
          | true =>
              have hwritten : isWritten loc = true := by simpa [hx] using hclosed
              simp [← htold.mayExecute hmode, hx, hwritten]

theorem find_of_openFile {path : Text} {loc : Location} {content : Content}
    (h : openFile t directory isWritten path = .ok (loc, content)) :
    ∃ mode, t.find directory path = .ok (.file loc mode content) ∧ mode.mayExecute = true := by
  unfold openFile at h
  split at h
  · rename_i mode _ hfind
    split at h
    · cases h
    · rename_i hmode
      split at h
      · cases h
      · injection h with h
        injection h with hl hc
        subst hl hc
        exact ⟨mode, hfind, by simpa using hmode⟩
  · cases h
  · cases h

theorem openInterpreter_of_some {name : Octets} {path : Text}
    (h : interpreterPath? name = some path) :
    openInterpreter t directory isWritten name = openFile t directory isWritten path := by
  unfold interpreterPath? at h
  split at h
  · cases h
  · rename_i hne
    simp only [openInterpreter, hne, if_false, Bool.false_eq_true, h]

theorem openInterpreter_of_none {name : Octets} (h : interpreterPath? name = none) :
    openInterpreter t directory isWritten name = openInterpreter u directory isWritten' name := by
  unfold interpreterPath? at h
  unfold openInterpreter
  split
  · rfl
  · rename_i hne
    simp only [hne, if_false, Bool.false_eq_true] at h
    simp only [h]

theorem exists_path_of_openInterpreter {name : Octets} {file : Location × Content}
    (h : openInterpreter t directory isWritten name = .ok file) :
    ∃ path, interpreterPath? name = some path ∧
      openFile t directory isWritten path = .ok file := by
  cases hn : interpreterPath? name with
  | some path => exact ⟨path, rfl, by rwa [openInterpreter_of_some hn] at h⟩
  | none =>
      unfold interpreterPath? at hn
      unfold openInterpreter at h
      split at h
      · cases h
      · rename_i hne
        simp only [hne, if_false, Bool.false_eq_true] at hn
        simp [hn] at h

theorem openInterpreter_eq (h : OpensAlike t u directory isWritten isWritten' W) {name : Octets}
    {scripts : Nat}
    (hf : ∀ path ∈ interpreterPath? name, ∀ loc ∈ files t directory scripts path, ¬ W loc) :
    openInterpreter t directory isWritten name = openInterpreter u directory isWritten' name := by
  cases hn : interpreterPath? name with
  | none => exact openInterpreter_of_none hn
  | some path =>
      rw [openInterpreter_of_some hn, openInterpreter_of_some hn]
      exact h path fun loc _ _ hfind => hf path hn loc (mem_files_of_find hfind scripts)

/-- The image behind a file depends on what is behind its interpreter. -/
theorem ofFile_eq {next next' : Octets → List Octets → Except Cause Image}
    {file : Location × Content} {path : Octets} {arguments : List Octets}
    (h : ∀ data i, file.2 = .octets data → Interpreter.ofOctets? data = some i →
      ∀ arguments, next i.path arguments = next' i.path arguments) :
    ofFile next file path arguments = ofFile next' file path arguments := by
  unfold ofFile
  split
  · rfl
  · rename_i data hdata
    split
    · rfl
    · rename_i i hi
      exact h data i hdata hi _

/-- **The image behind an interpreter** depends on nothing but the files it comes to. -/
theorem interpret_eq (h : OpensAlike t u directory isWritten isWritten' W) (scripts : Nat)
    (name : Octets) (arguments : List Octets)
    (hf : ∀ path ∈ interpreterPath? name, ∀ loc ∈ files t directory scripts path, ¬ W loc) :
    interpret t directory isWritten scripts name arguments =
      interpret u directory isWritten' scripts name arguments := by
  induction scripts generalizing name arguments with
  | zero => rw [interpret, interpret, openInterpreter_eq h hf]
  | succ scripts ih =>
      rw [interpret, interpret, ← openInterpreter_eq h hf]
      cases ho : openInterpreter t directory isWritten name with
      | error cause => rfl
      | ok file =>
          -- the files behind the interpreter are among those behind the script that names it
          refine ofFile_eq fun data i hdata hi arguments => ih _ _ fun path hpath loc hloc => ?_
          obtain ⟨p, hp, hopen⟩ := exists_path_of_openInterpreter ho
          obtain ⟨mode, hfind, hmode⟩ := find_of_openFile hopen
          refine hf p hp loc (mem_files_of_interpreter hfind hmode ?_ hloc)
          rw [hdata]
          simpa [interpreter?, hi] using hpath

theorem loadFile_eq (h : OpensAlike t u directory isWritten isWritten' W) {path : Text}
    (arguments : List Octets)
    (hf : ∀ loc ∈ files t directory (maxScripts + 1) path, ¬ W loc) :
    loadFile t directory isWritten path arguments =
      loadFile u directory isWritten' path arguments := by
  unfold loadFile
  rw [← h path fun loc _ _ hfind => hf loc (mem_files_of_find hfind _)]
  cases ho : openFile t directory isWritten path with
  | error cause => rfl
  | ok file =>
      obtain ⟨mode, hfind, hmode⟩ := find_of_openFile ho
      refine ofFile_eq fun data i hdata hi arguments => interpret_eq h _ _ _ ?_
      intro p hp loc hloc
      refine hf loc (mem_files_of_interpreter hfind hmode ?_ hloc)
      rw [hdata]
      simpa [interpreter?, hi] using hp

theorem loadBare_eq (h : OpensAlike t u directory isWritten isWritten' W) {name : Text}
    {arguments : List Octets} (ds : List Text) (refusal : Errno)
    (hf : ∀ loc ∈ bareFiles t directory isWritten name arguments ds, ¬ W loc) :
    loadBare t directory isWritten name arguments refusal ds =
      loadBare u directory isWritten' name arguments refusal ds := by
  induction ds generalizing refusal with
  | nil => rfl
  | cons d ds ih =>
      simp only [bareFiles, List.mem_append] at hf
      rw [loadBare, loadBare, ← loadFile_eq h arguments fun loc hloc => hf loc (Or.inl hloc)]
      cases hl : loadFile t directory isWritten (Path.join d name) arguments with
      | ok image => rfl
      | error cause =>
          cases cause with
          | errno e =>
              -- the directories that follow are looked into only if the refusal passes on
              by_cases he : passesOn e = true
              · simp only [he, if_true]
                refine ih _ fun loc hloc => hf loc (Or.inr ?_)
                simpa only [hl, he, if_true] using hloc
              · simp [he]
          | _ => rfl

/-- **What a start comes to** depends on nothing but the files it looks into. -/
theorem load_eq (h : OpensAlike t u directory isWritten isWritten' W)
    {programPath : List Text} {path : Text} {arguments : List Octets}
    (hf : ∀ loc ∈ opened t directory isWritten programPath path arguments, ¬ W loc) :
    load t directory isWritten programPath path arguments =
      load u directory isWritten' programPath path arguments := by
  unfold load
  unfold opened at hf
  split
  · rfl
  · rename_i hfit
    simp only [hfit, if_false, Bool.false_eq_true] at hf
    split
    · rename_i hs
      simp only [hs, if_true] at hf
      exact loadFile_eq h arguments hf
    · rename_i hs
      simp only [hs, if_false, Bool.false_eq_true] at hf
      exact loadBare_eq h programPath _ hf

end

/-! ## Where the image is -/

section

variable {t : FileTree} {isWritten : Location → Bool}

/-- An image is the file itself, or comes from its interpreter. -/
theorem ofFile_eq_ok {next : Octets → List Octets → Except Cause Image}
    {file : Location × Content} {path : Octets} {arguments : List Octets} {image : Image}
    (h : ofFile next file path arguments = .ok image) :
    image.loc = file.1 ∨
      ∃ data i arguments, file.2 = .octets data ∧ Interpreter.ofOctets? data = some i ∧
        next i.path arguments = .ok image := by
  unfold ofFile at h
  split at h
  · injection h with h
    exact Or.inl (h ▸ rfl)
  · rename_i data hdata
    split at h
    · cases h
    · rename_i i hi
      exact Or.inr ⟨data, i, _, hdata, hi, h⟩

theorem loc_mem_of_interpret {directory : Location} (scripts : Nat) {name : Octets}
    {arguments : List Octets} {image : Image}
    (h : interpret t directory isWritten scripts name arguments = .ok image) :
    ∃ path ∈ interpreterPath? name, image.loc ∈ files t directory scripts path := by
  induction scripts generalizing name arguments with
  | zero =>
      rw [interpret] at h
      split at h
      · cases h
      · cases h
  | succ scripts ih =>
      rw [interpret] at h
      split at h
      · cases h
      · rename_i file ho
        obtain ⟨path, hp, hopen⟩ := exists_path_of_openInterpreter ho
        obtain ⟨mode, hfind, hmode⟩ := find_of_openFile hopen
        refine ⟨path, hp, ?_⟩
        rcases ofFile_eq_ok h with hloc | ⟨data, i, arguments, hdata, hi, hnext⟩
        · rw [hloc]
          exact mem_files_of_find hfind _
        · obtain ⟨p, hp, hmem⟩ := ih hnext
          refine mem_files_of_interpreter hfind hmode ?_ hmem
          rw [hdata]
          simpa [interpreter?, hi] using hp

theorem loc_mem_of_loadFile {directory : Location} {path : Text} {arguments : List Octets}
    {image : Image} (h : loadFile t directory isWritten path arguments = .ok image) :
    image.loc ∈ files t directory (maxScripts + 1) path := by
  unfold loadFile at h
  split at h
  · cases h
  · rename_i file ho
    obtain ⟨mode, hfind, hmode⟩ := find_of_openFile ho
    rcases ofFile_eq_ok h with hloc | ⟨data, i, arguments, hdata, hi, hnext⟩
    · rw [hloc]
      exact mem_files_of_find hfind _
    · obtain ⟨p, hp, hmem⟩ := loc_mem_of_interpret _ hnext
      refine mem_files_of_interpreter hfind hmode ?_ hmem
      rw [hdata]
      simpa [interpreter?, hi] using hp

theorem loc_mem_of_loadBare {directory : Location} {name : Text} {arguments : List Octets}
    {image : Image} (ds : List Text) {refusal : Errno}
    (h : loadBare t directory isWritten name arguments refusal ds = .ok image) :
    image.loc ∈ bareFiles t directory isWritten name arguments ds := by
  induction ds generalizing refusal with
  | nil => cases h
  | cons d ds ih =>
      rw [loadBare] at h
      simp only [bareFiles, List.mem_append]
      cases hl : loadFile t directory isWritten (Path.join d name) arguments with
      | ok found =>
          simp only [hl] at h
          injection h with h
          exact Or.inl (h ▸ loc_mem_of_loadFile hl)
      | error cause =>
          cases cause with
          | errno e =>
              simp only [hl] at h
              split at h
              · rename_i he
                simp only [he, if_true]
                exact Or.inr (ih h)
              · cases h
          | _ =>
              simp only [hl] at h
              cases h

/-- **The image is one of the files that were looked into.** -/
theorem loc_mem_opened {directory : Location} {programPath : List Text} {path : Text}
    {arguments : List Octets} {image : Image}
    (h : load t directory isWritten programPath path arguments = .ok image) :
    image.loc ∈ opened t directory isWritten programPath path arguments := by
  unfold load at h
  unfold opened
  split at h
  · cases h
  · rename_i hfit
    simp only [hfit, if_false, Bool.false_eq_true]
    split at h
    · rename_i hs
      simp only [hs, if_true]
      exact loc_mem_of_loadFile h
    · rename_i hs
      simp only [hs, if_false, Bool.false_eq_true]
      exact loc_mem_of_loadBare programPath h

end

end Image

end ParallelShell
