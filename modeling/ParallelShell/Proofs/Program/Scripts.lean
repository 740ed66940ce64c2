import ParallelShell.Proofs.Program.Load

set_option autoImplicit false

/-! # Files that are executed alike

Of a file of octets, a start looks at the first line and at nothing else: what comes behind a line
feed does not matter (`Interpreter.ofOctets?_append_cons`). Two files are `Content.ExecutedAlike` if
they are the same, or name the same interpreter. Where the files behind all paths are executed
alike, a start comes to the same image, or to the same refusal (`Image.load_eq_of_filesAlike`),
whichever files it looks into.
-/

namespace ParallelShell

/-! ## Scripts -/

namespace Interpreter

/-- The first line ends with its line feed, or is too long for the head of the file. -/
theorem firstLine?_append_cons (front back back' : Octets) :
    firstLine? (front ++ 0x0A :: back) = firstLine? (front ++ 0x0A :: back') := by
  have hend : ∀ rest : Octets, (front ++ 0x0A :: rest).takeWhile (· ≠ 0x0A) =
      front.takeWhile (· ≠ 0x0A) := by
    intro rest
    rw [List.takeWhile_append]
    split
    · rename_i hall
      rw [(List.takeWhile_prefix _).eq_of_length hall]
      simp
    · rfl
  by_cases h : front.length < headSize - 2
  · have hhead : ∀ rest : Octets, ∃ rest',
        (front ++ 0x0A :: rest).take (headSize - 2) = front ++ 0x0A :: rest' := by
      intro rest
      obtain ⟨n, hn⟩ := Nat.exists_eq_add_of_lt h
      refine ⟨rest.take n, ?_⟩
      rw [hn, Nat.add_assoc, List.take_length_add_append, List.take_succ_cons]
    obtain ⟨rest, hrest⟩ := hhead back
    obtain ⟨rest', hrest'⟩ := hhead back'
    have hmem : ∀ rest : Octets, (front ++ 0x0A :: rest).contains 0x0A = true := by simp
    simp only [firstLine?, hrest, hrest', hmem, hend, if_true]
  · have hlong : headSize - 2 ≤ front.length := Nat.not_lt.mp h
    rw [firstLine?, firstLine?, List.take_append_of_le_length hlong,
      List.take_append_of_le_length hlong]

/-- **What comes behind a line feed** does not matter to a script. -/
theorem ofOctets?_append_cons (front back back' : Octets) :
    ofOctets? (front ++ 0x0A :: back) = ofOctets? (front ++ 0x0A :: back') := by
  match front with
  | [] => rfl
  | [a] => simp [ofOctets?]
  | a :: b :: front =>
      by_cases h : a = 0x23 ∧ b = 0x21
      · obtain ⟨rfl, rfl⟩ := h
        simp only [List.cons_append, ofOctets?, firstLine?_append_cons front back back']
      · have hnone : ∀ rest, ofOctets? (a :: b :: rest) = none := by
          intro rest
          unfold ofOctets?
          split
          · simp_all
          · rfl
        rw [List.cons_append, List.cons_append, hnone, List.cons_append, List.cons_append, hnone]

end Interpreter

/-- Two files are executed alike: what they hold is the same, or names the same interpreter. -/
inductive Content.ExecutedAlike : Content → Content → Prop
  | refl (c : Content) : ExecutedAlike c c
  | octets {data data' : Octets} : Interpreter.ofOctets? data = Interpreter.ofOctets? data' →
      ExecutedAlike (.octets data) (.octets data')

/-! ## Starts -/

namespace Image

variable {t u : FileTree} {directory : Location} {isWritten : Location → Bool}

def FileAlike (a b : Location × Content) : Prop := a.1 = b.1 ∧ a.2.ExecutedAlike b.2

/-- From a directory, all paths lead to files that are executed alike. -/
def FilesAlike (t u : FileTree) (directory : Location) (isWritten : Location → Bool) : Prop :=
  ∀ path,
    Agree FileAlike (openFile t directory isWritten path) (openFile u directory isWritten path)

/-- Trees that differ in files of `W` only, and these have the same rights and are executed
alike. -/
theorem filesAlike_of_alikeBut {β : Type} {told : Mode → β} {W : Location → Prop}
    (h : FileTree.AlikeBut told W t u) (htold : Mode.Tells told)
    (hw : ∀ loc, W loc → ∀ mode mode' content content',
      t.node? loc = some (.file mode content) → u.node? loc = some (.file mode' content') →
        content.ExecutedAlike content') :
    FilesAlike t u directory isWritten := by
  intro path
  have hfind := FileTree.find_alikeBut h directory path
  have ht : ∀ loc mode content, t.find directory path = .ok (.file loc mode content) →
      t.node? loc = some (.file mode content) := fun _ _ _ hl => FileTree.node?_of_find hl
  have hu : ∀ loc mode content, u.find directory path = .ok (.file loc mode content) →
      u.node? loc = some (.file mode content) := fun _ _ _ hl => FileTree.node?_of_find hl
  unfold openFile
  generalize t.find directory path = a at hfind ht ⊢
  generalize u.find directory path = b at hfind hu ⊢
  have hopened : ∀ loc (mode : Mode) {content content' : Content},
      content.ExecutedAlike content' → Agree FileAlike
        (if !mode.mayExecute then .error (Cause.errno .permissionDenied)
          else if isWritten loc then .error (Cause.errno .textBusy) else .ok (loc, content))
        (if !mode.mayExecute then .error (Cause.errno .permissionDenied)
          else if isWritten loc then .error (Cause.errno .textBusy) else .ok (loc, content')) := by
    intro loc mode content content' hcontent
    split
    · exact .error _
    split
    · exact .error _
    exact .ok ⟨rfl, hcontent⟩
  cases hfind with
  | error cause => exact .error cause
  | @ok found _ hab =>
      cases hab with
      | @file loc mode mode' c c' hloc hmode =>
          have hcontent := hw loc hloc mode mode' c c' (ht loc mode c rfl) (hu loc mode' c' rfl)
          simpa only [htold.mayExecute hmode] using hopened loc mode' hcontent
      | refl =>
          cases found with
          | file loc mode content => exact hopened loc mode (.refl content)
          | _ => exact .error _

section

variable (h : FilesAlike t u directory isWritten)

include h

theorem openInterpreter_filesAlike (name : Octets) :
    Agree FileAlike (openInterpreter t directory isWritten name)
      (openInterpreter u directory isWritten name) := by
  unfold openInterpreter
  split
  · exact .error _
  · split
    · exact h _
    · exact .error _

omit h in
/-- The images behind two files that are executed alike are the same, if those behind their
interpreter are. -/
theorem ofFile_eq_of_fileAlike {next next' : Octets → List Octets → Except Cause Image}
    {a b : Location × Content} (hab : FileAlike a b)
    (hnext : ∀ name arguments, next name arguments = next' name arguments)
    (path : Octets) (arguments : List Octets) :
    ofFile next a path arguments = ofFile next' b path arguments := by
  obtain ⟨loc, content⟩ := a
  obtain ⟨loc', content'⟩ := b
  obtain ⟨rfl, hcontent⟩ := hab
  obtain rfl : next = next' := funext fun name => funext (hnext name)
  cases hcontent with
  | refl => rfl
  | octets hsame => simp only [ofFile, hsame]

theorem interpret_eq_of_filesAlike (scripts : Nat) (name : Octets) (arguments : List Octets) :
    interpret t directory isWritten scripts name arguments =
      interpret u directory isWritten scripts name arguments := by
  induction scripts generalizing name arguments with
  | zero =>
      have hopen := openInterpreter_filesAlike h name
      rw [interpret, interpret]
      generalize openInterpreter t directory isWritten name = a at hopen ⊢
      generalize openInterpreter u directory isWritten name = b at hopen ⊢
      cases hopen <;> rfl
  | succ scripts ih =>
      have hopen := openInterpreter_filesAlike h name
      rw [interpret, interpret]
      generalize openInterpreter t directory isWritten name = a at hopen ⊢
      generalize openInterpreter u directory isWritten name = b at hopen ⊢
      cases hopen with
      | error cause => rfl
      | ok hab => exact ofFile_eq_of_fileAlike hab ih name arguments

theorem loadFile_eq_of_filesAlike (path : Text) (arguments : List Octets) :
    loadFile t directory isWritten path arguments =
      loadFile u directory isWritten path arguments := by
  have hopen := h path
  unfold loadFile
  generalize openFile t directory isWritten path = a at hopen ⊢
  generalize openFile u directory isWritten path = b at hopen ⊢
  cases hopen with
  | error cause => rfl
  | ok hab => exact ofFile_eq_of_fileAlike hab (interpret_eq_of_filesAlike h _) _ _

theorem loadBare_eq_of_filesAlike (name : Text) (arguments : List Octets) (ds : List Text)
    (refusal : Errno) : loadBare t directory isWritten name arguments refusal ds =
      loadBare u directory isWritten name arguments refusal ds := by
  induction ds generalizing refusal with
  | nil => rfl
  | cons d ds ih => simp only [loadBare, loadFile_eq_of_filesAlike h, ih]

/-- **A start comes to the same** where all files are executed alike. -/
theorem load_eq_of_filesAlike (programPath : List Text) (path : Text) (arguments : List Octets) :
    load t directory isWritten programPath path arguments =
      load u directory isWritten programPath path arguments := by
  simp only [load, loadFile_eq_of_filesAlike h, loadBare_eq_of_filesAlike h]

end

end Image

end ParallelShell
