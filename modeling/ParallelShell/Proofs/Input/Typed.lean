import ParallelShell.Input.Editor

set_option autoImplicit false

/-! # Lines that are typed

Of a line editor not much is needed: that a line without control characters comes back as it was
typed when Enter is pressed, that Ctrl-C drops it, and that Ctrl-D without a line closes the input
(`LineEditor.ReturnsTyped`). With such an editor the shell reads what is typed
(`Terminal.readLine_enter`), and an empty line for each one that was dropped.

The editor that puts lines together key by key is one of them: a key that is no control character is
added to the line, whatever can be completed and whatever has been typed before (`Edit.run_append`).

`Typed` puts turns at the terminal together in that way.
-/

namespace ParallelShell

/-- Whether a character is a control character: one of the first 0x20, or one from 0x7F to 0x9F. -/
def isControl (c : Char) : Bool := c.toNat < 0x20 || (0x7F ≤ c.toNat && c.toNat < 0xA0)

def IsTypeable (t : Text) : Prop := ∀ c ∈ t, isControl c = false

instance : DecidablePred IsTypeable := fun t =>
  decidable_of_iff ((t.all fun c => !isControl c) = true) (by simp [IsTypeable])

/-- **Lines that are typed**, one after the other, and what is pressed in each turn at the terminal:
a line and Enter; anything and Ctrl-C, any number of times; and in the end Ctrl-D. -/
inductive Typed : List Text → List (List Char) → Prop
  | closed : Typed [] [['\x04']]
  | line {line : Text} {lines : List Text} {turns : List (List Char)} :
      IsTypeable line → Typed lines turns → Typed (line :: lines) ((line ++ ['\r']) :: turns)
  | dropped {keys : Text} {lines : List Text} {turns : List (List Char)} :
      IsTypeable keys → Typed lines turns → Typed lines ((keys ++ ['\x03']) :: turns)

theorem Typed.isTypeable {lines : List Text} {turns : List (List Char)} (h : Typed lines turns) :
    ∀ line ∈ lines, IsTypeable line := by
  induction h with
  | closed => simp
  | line hline _ ih => exact List.forall_mem_cons.mpr ⟨hline, ih⟩
  | dropped _ _ ih => exact ih

namespace Edit

variable {c : Completer} {h : History} {e : Edit} {key : Char} {keys : Text}

/-- **A key that is no control character** is added to the line. -/
theorem press_of_not_isControl (hphase : e.phase = .typing) (hkey : isControl key = false) :
    e.press c h key = .inl { e with line := e.line ++ [key] } := by
  have hne : ∀ k, isControl k = true → key ≠ k := by
    rintro k hk rfl
    rw [hkey] at hk
    cases hk
  have hpress : e.press c h key = e.type c h key := by rw [press, hphase]
  rw [hpress, type]
  simp only [hne '\r' rfl, hne '\n' rfl, hne '\x03' rfl, hne '\x04' rfl, hne '\t' rfl,
    hne '\x7f' rfl, hne '\x10' rfl, hne '\x0e' rfl, or_self, if_false, ← hphase]

theorem run_append (hphase : e.phase = .typing) (hkeys : IsTypeable keys) (rest : List Char) :
    run c h e (keys ++ rest) = run c h { e with line := e.line ++ keys } rest := by
  induction keys generalizing e with
  | nil => simp
  | cons key keys ih =>
      obtain ⟨hkey, hkeys⟩ := List.forall_mem_cons.mp hkeys
      have hnext := ih (e := { e with line := e.line ++ [key] }) hphase hkeys
      rw [List.cons_append, run, press_of_not_isControl hphase hkey]
      simp only
      rw [hnext, List.append_assoc, List.singleton_append]

end Edit

namespace LineEditor

/-- **An editor that returns what is typed**: a line that was typed before Enter; no line if Ctrl-C
drops it; and the end of the input at Ctrl-D. -/
structure ReturnsTyped (E : LineEditor) : Prop where
  line : ∀ state c line, IsTypeable line → (E.edit state c (line ++ ['\r'])).1 = .line line
  dropped : ∀ state c keys, IsTypeable keys → (E.edit state c (keys ++ ['\x03'])).1 = .dropped
  closed : ∀ state c, (E.edit state c ['\x04']).1 = .closed

/-- The editor that puts lines together key by key returns what is typed. -/
theorem returnsTyped_keyByKey : keyByKey.ReturnsTyped where
  line _ _ _ hline := Edit.run_append rfl hline ['\r']
  dropped _ _ _ hkeys := Edit.run_append rfl hkeys ['\x03']
  closed _ _ := rfl

end LineEditor

namespace Terminal

variable {E : LineEditor} (hE : E.ReturnsTyped) (x : Terminal E) (s : SearchPath) (t : FileTree)
  (directory : Location) {line keys : Text}

/-- The line that is read, if any, is decided by how the line ends. -/
theorem readLine_fst (x : Terminal E) (s : SearchPath) (t : FileTree) (directory : Location)
    (keys : List Char) : (x.readLine s t directory keys).1 =
      match (E.edit x.state (x.completer.refresh s t directory) keys).1 with
      | .line line => some line
      | .dropped => some []
      | .closed => none := by
  simp only [readLine]
  split <;> rename_i heq <;> rw [heq]

/-- The terminal keeps the completer with which the line was typed. -/
theorem completer_readLine (x : Terminal E) (s : SearchPath) (t : FileTree) (directory : Location)
    (keys : List Char) :
    (x.readLine s t directory keys).2.completer = x.completer.refresh s t directory := by
  simp only [readLine]
  split
  · unfold remember
    split <;> rfl
  · rfl
  · rfl

include hE in
/-- **Enter** gives the line that was typed. -/
theorem readLine_enter (hline : IsTypeable line) :
    (x.readLine s t directory (line ++ ['\r'])).1 = some line := by
  rw [readLine_fst, hE.line _ _ _ hline]

include hE in
/-- **Ctrl-C** gives an empty line. -/
theorem readLine_dropped (hkeys : IsTypeable keys) :
    (x.readLine s t directory (keys ++ ['\x03'])).1 = some [] := by
  rw [readLine_fst, hE.dropped _ _ _ hkeys]

include hE in
/-- **Ctrl-D** closes the input. -/
theorem readLine_closed : (x.readLine s t directory ['\x04']).1 = none := by
  rw [readLine_fst, hE.closed]

end Terminal

end ParallelShell
