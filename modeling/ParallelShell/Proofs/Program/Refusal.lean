import ParallelShell.Program.Load

set_option autoImplicit false

/-! # Why a program is not loaded

A program can fail to load in many ways: its path may lead nowhere, it may be no program, its
interpreter may be missing, its arguments may be too long. None of them means that the system has
run out of processes or of memory (`Image.isExhaustion_of_load`). This goes through everything that
loading is made of, and in the end through the walk of a path, which can be refused for five
reasons.
-/

namespace ParallelShell

/-- A refusal that has nothing to do with the processes and the memory that are left. -/
def Errno.IsLocal (e : Errno) : Prop := e ≠ tryAgain ∧ e ≠ noMemory

theorem Cause.isExhaustion_errno {e : Errno} (h : e.IsLocal) : (errno e).isExhaustion = false := by
  simp [isExhaustion, h.1, h.2]

namespace FileTree

variable {t : FileTree} {directory : Location} {path : Text} {cause : Cause}

theorem isLocal_of_descend {creating : Bool}
    {follow : Location → Text → List Text → Except Errno Found}
    (hf : ∀ loc target rest e, follow loc target rest = .error e → e.IsLocal) (names : List Text)
    {found : Found} {e : Errno} (h : descend t creating follow found names = .error e) :
    e.IsLocal := by
  have hlocal : Errno.IsLocal .noEntry ∧ Errno.IsLocal .notDirectory ∧
      Errno.IsLocal .isDirectory ∧ Errno.IsLocal .nameTooLong := by
    simp [Errno.IsLocal, Errno.noEntry, Errno.notDirectory, Errno.isDirectory, Errno.nameTooLong,
      Errno.tryAgain, Errno.noMemory]
  obtain ⟨hentry, hnot, his, hlong⟩ := hlocal
  induction names generalizing found with
  | nil => simp [descend] at h
  | cons name rest ih =>
      cases found with
      | absent loc n => exact Except.error.inj h ▸ hentry
      | file loc mode c => exact Except.error.inj h ▸ hnot
      | device loc d => exact Except.error.inj h ▸ hnot
      | directory loc =>
          simp only [descend] at h
          split at h
          · exact ih h
          split at h
          · exact ih h
          split at h
          · exact Except.error.inj h ▸ his
          split at h
          · exact Except.error.inj h ▸ hlong
          split at h
          · split at h
            · cases h
            · exact Except.error.inj h ▸ hentry
          · exact ih h
          · exact ih h
          · exact ih h
          · exact hf _ _ _ _ h

theorem isLocal_of_walk {creating : Bool} {links : Nat} {loc : Location} {names : List Text}
    {e : Errno} (h : t.walk creating links loc names = .error e) : e.IsLocal := by
  induction links generalizing loc names e with
  | zero =>
      rw [walk] at h
      refine isLocal_of_descend ?_ names h
      intro _ _ _ _ hfollow
      obtain rfl := Except.error.inj hfollow
      simp [Errno.IsLocal, Errno.tooManyLinks, Errno.tryAgain, Errno.noMemory]
  | succ links ih =>
      rw [walk] at h
      exact isLocal_of_descend (fun _ _ _ _ hfollow => ih hfollow) names h

theorem isExhaustion_of_locate {creating : Bool}
    (h : t.locate creating directory path = .error cause) : cause.isExhaustion = false := by
  unfold locate at h
  split at h
  · rename_i hrefusal
    obtain rfl := Except.error.inj h
    unfold refusal? at hrefusal
    split at hrefusal
    · exact Option.some.inj hrefusal ▸ rfl
    split at hrefusal
    · exact Option.some.inj hrefusal ▸ rfl
    split at hrefusal
    · exact Option.some.inj hrefusal ▸ rfl
    · cases hrefusal
  · split at h
    · rename_i hwalk
      exact Except.error.inj h ▸ Cause.isExhaustion_errno (isLocal_of_walk hwalk)
    · cases h

theorem isExhaustion_of_find (h : t.find directory path = .error cause) :
    cause.isExhaustion = false := by
  unfold find at h
  split at h
  · exact Except.error.inj h ▸ rfl
  · exact isExhaustion_of_locate h

end FileTree

namespace Image

variable {t : FileTree} {directory : Location} {isWritten : Location → Bool}
  {arguments : List Octets} {cause : Cause}

theorem isExhaustion_of_openFile {path : Text}
    (h : openFile t directory isWritten path = .error cause) : cause.isExhaustion = false := by
  unfold openFile at h
  split at h
  · split at h
    · exact Except.error.inj h ▸ rfl
    split at h
    · exact Except.error.inj h ▸ rfl
    · cases h
  · exact Except.error.inj h ▸ rfl
  · rename_i hfind
    exact Except.error.inj h ▸ FileTree.isExhaustion_of_find hfind

theorem isExhaustion_of_openInterpreter {name : Octets}
    (h : openInterpreter t directory isWritten name = .error cause) :
    cause.isExhaustion = false := by
  unfold openInterpreter at h
  split at h
  · exact Except.error.inj h ▸ rfl
  split at h
  · exact isExhaustion_of_openFile h
  · exact Except.error.inj h ▸ rfl

theorem isExhaustion_of_ofFile {next : Octets → List Octets → Except Cause Image}
    (hnext : ∀ path arguments cause, next path arguments = .error cause →
      cause.isExhaustion = false)
    {file : Location × Content} {path : Octets}
    (h : ofFile next file path arguments = .error cause) : cause.isExhaustion = false := by
  unfold ofFile at h
  split at h
  · cases h
  · split at h
    · exact Except.error.inj h ▸ rfl
    · exact hnext _ _ _ h

theorem isExhaustion_of_interpret {scripts : Nat} {name : Octets}
    (h : interpret t directory isWritten scripts name arguments = .error cause) :
    cause.isExhaustion = false := by
  induction scripts generalizing name arguments cause with
  | zero =>
      rw [interpret] at h
      split at h
      · rename_i ho
        exact Except.error.inj h ▸ isExhaustion_of_openInterpreter ho
      · exact Except.error.inj h ▸ rfl
  | succ scripts ih =>
      rw [interpret] at h
      split at h
      · rename_i ho
        exact Except.error.inj h ▸ isExhaustion_of_openInterpreter ho
      · exact isExhaustion_of_ofFile (fun _ _ _ hnext => ih hnext) h

theorem isExhaustion_of_loadFile {path : Text}
    (h : loadFile t directory isWritten path arguments = .error cause) :
    cause.isExhaustion = false := by
  unfold loadFile at h
  split at h
  · rename_i ho
    exact Except.error.inj h ▸ isExhaustion_of_openFile ho
  · exact isExhaustion_of_ofFile (fun _ _ _ hnext => isExhaustion_of_interpret hnext) h

/-- The refusal that is kept while the directories are gone through is one that passes on, so it is
none of the two either. -/
theorem isExhaustion_of_loadBare {name : Text} (ds : List Text) {refusal : Errno}
    (hrefusal : refusal.IsLocal)
    (h : loadBare t directory isWritten name arguments refusal ds = .error cause) :
    cause.isExhaustion = false := by
  induction ds generalizing refusal with
  | nil => exact Except.error.inj h ▸ Cause.isExhaustion_errno hrefusal
  | cons d ds ih =>
      rw [loadBare] at h
      split at h
      · rename_i e hl
        have he : (Cause.errno e).isExhaustion = false := isExhaustion_of_loadFile hl
        split at h
        · refine ih ?_ h
          split
          · exact hrefusal
          · simpa [Cause.isExhaustion, Errno.IsLocal] using he
        · exact Except.error.inj h ▸ he
      · exact isExhaustion_of_loadFile h

/-- **No program fails to load because processes or memory have run out.** -/
theorem isExhaustion_of_load {programPath : List Text} {path : Text}
    (h : load t directory isWritten programPath path arguments = .error cause) :
    cause.isExhaustion = false := by
  unfold load at h
  split at h
  · exact Except.error.inj h ▸ rfl
  split at h
  · exact isExhaustion_of_loadFile h
  · refine isExhaustion_of_loadBare programPath ?_ h
    simp [Errno.IsLocal, Errno.noEntry, Errno.tryAgain, Errno.noMemory]

end Image

end ParallelShell
