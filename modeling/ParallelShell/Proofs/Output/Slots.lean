import ParallelShell.Proofs.Shell.Play

set_option autoImplicit false

/-! # What is put out while a line is played

The programs of a line write in any order, the shell writes its notices in between, and everything
that is not redirected goes to the same two streams. Still nothing is lost and nothing goes astray.

The state of the matter is a list of **slots**, one for each command that has its target open:
where its output goes, and what has been put out so far (`Play.slots`). A turn does one of three
things to it (`Play.Delivers`): nothing; or a slot is added, and if it goes into a file, that file
is now empty; or one more write is made from a slot, at the offset its earlier ones have reached.
So at any time each file holds exactly what was put out from its slot, and what the console has
gained falls apart into what was put out from the other slots (`Play.Kept`).
-/

namespace ParallelShell

namespace Write

def dataOf (ws : List Write) : Octets := ws.flatMap Write.data

def sentTo (stream : Stream) (ws : List Write) : Octets :=
  dataOf (ws.filter fun w => w.stream = stream)

@[simp]
theorem dataOf_append (ws vs : List Write) : dataOf (ws ++ vs) = dataOf ws ++ dataOf vs := by
  simp [dataOf]

@[simp]
theorem dataOf_singleton (w : Write) : dataOf [w] = w.data := by
  simp [dataOf]

theorem sentTo_cons (stream : Stream) (w : Write) (ws : List Write) :
    sentTo stream (w :: ws) = (if w.stream = stream then w.data else []) ++ sentTo stream ws := by
  by_cases h : w.stream = stream <;> simp [sentTo, dataOf, h]

end Write

/-- What the two streams of a console have gained by some writes. -/
theorem Console.foldl_add (c : Console) (ws : List Write) :
    ws.foldl Console.add c =
      { c with out := c.out ++ Write.sentTo .out ws, err := c.err ++ Write.sentTo .err ws } := by
  induction ws generalizing c with
  | nil => simp [Write.sentTo, Write.dataOf]
  | cons w ws ih =>
      rw [List.foldl_cons, ih, Write.sentTo_cons, Write.sentTo_cons]
      cases h : w.stream <;> simp [Console.add, h]

theorem FileTree.overwrite_length (old data : Octets) :
    FileTree.overwrite old old.length data = old ++ data := by
  simp [FileTree.overwrite]

/-! ## Slots -/

namespace Play

/-- Where the output of the command goes whose target has just been opened. -/
def Phase.into? : Phase → Option Destination
  | .opened _ into => some into
  | .failing _ _ into => some into
  | _ => none

/-- The commands that have their target open: where the output goes, and what has been put out. -/
def slots (p : Play) : List (Destination × List Write) :=
  p.parts.map (fun x => (x.into, x.output)) ++ (p.phase.into?.map fun into => (into, [])).toList

/-- What a tree has become by opening the file of a destination, if there is any. -/
def Emptied (into : Destination) (t u : FileTree) : Prop :=
  match into with
  | .file loc =>
    ∃ mode, u.node? loc = some (.file mode (.octets [])) ∧
      ∀ other, other ≠ loc → u.node? other = t.node? other
  | _ => u = t

/-- **What a turn does to the slots**, and to what their writes have an effect on. -/
inductive Delivers (p q : Play) : Prop
  | nothing : q.slots = p.slots → q.scene = p.scene → Delivers p q
  | opened (into : Destination) :
      q.slots = p.slots ++ [(into, [])] → q.console = p.console →
      Emptied into p.shell.system.tree q.shell.system.tree → Delivers p q
  | written (i : Nat) (into : Destination) (ws : List Write) (w : Write) :
      p.slots[i]? = some (into, ws) → q.slots = p.slots.set i (into, ws ++ [w]) →
      q.scene = p.scene.write into (Write.dataOf ws).length w → Delivers p q

theorem emptied_of_openTarget {s s' : Shell} {target : Option Text} {into : Destination}
    (h : s.openTarget target = .ok (s', into)) : Emptied into s.system.tree s'.system.tree := by
  rcases Shell.openTarget_eq_ok h with ⟨-, rfl, rfl⟩ | ⟨_, _, _, -, -, rfl, rfl⟩ |
    ⟨_, loc, mode, -, hf, rfl, rfl⟩
  · rfl
  · rfl
  · have hloc := (System.node?_of_targetFile? hf).1
    refine ⟨mode, ?_, ?_⟩
    · exact (FileTree.node?_put _ _ _ _ hloc).trans (if_pos rfl)
    · intro other ho
      exact (FileTree.node?_put _ _ _ _ hloc).trans (if_neg ho)

theorem output_of_isFresh {x : Part} {writes : Launch → List Write} (h : x.course.IsFresh writes) :
    x.output = [] := by
  obtain ⟨command, directory, into, course⟩ := x
  cases course with
  | program launch made pending => exact h.1
  | done => rfl
  | failed fault => exact absurd h id
  | fatal fault => rfl

/-- The part that a command becomes takes over its slot. -/
theorem delivers_carryOut (writes : Nat → Launch → List Write) {p : Play} {c : Command}
    {into : Destination} (hp : p.phase = .opened c into) :
    Delivers p (p.carryOut writes c into) := by
  have hdone := carriedOut writes p c into
  generalize p.carryOut writes c into = q at hdone ⊢
  cases hdone with
  | @part shell course children phase htree hfresh hphase =>
      have hout : (p.shell.part c into course).output = [] := output_of_isFresh hfresh
      refine .nothing ?_ (by rw [scene, scene, htree])
      rcases hphase with rfl | ⟨status, rfl, -⟩ <;> simp [slots, hp, Phase.into?, hout]
  | failing => exact .nothing (by simp [slots, hp, Phase.into?]) rfl

/-- **Every turn** does one of the three. -/
theorem delivers_of_step {writes : Nat → Launch → List Write} {p q : Play} (h : Step writes p q) :
    Delivers p q := by
  cases h with
  | finish hp _ _ => exact .nothing (by simp [slots, hp, Phase.into?]) rfl
  | unopened hp _ _ => exact .opened .inherited (by simp [slots, hp, Phase.into?]) rfl rfl
  | @opened _ _ _ into hp _ ho =>
      exact .opened into (by simp [slots, hp, Phase.into?]) rfl (emptied_of_openTarget ho)
  | carriedOut hp => exact delivers_carryOut writes hp
  | @notified c fault into hp =>
      refine .written p.parts.length into [] Part.notice ?_ ?_ ?_
      · simp [slots, hp, Phase.into?]
      · simp [slots, hp, Phase.into?, notify, withPart, Part.output]
      · rw [notify_eq]
        rfl
  | @written n x launch made pending w hn hcourse =>
      obtain ⟨hlt, hx⟩ := List.getElem?_eq_some_iff.mp hn
      refine .written n x.into made w ?_ ?_ rfl
      · simp [slots, List.getElem?_append, hlt, hx, Part.output, hcourse]
      · have hlt' : n < (p.parts.map fun x => (x.into, x.output)).length := by simpa using hlt
        simp only [slots, withWritten, withScene, List.map_set]
        rw [List.set_append_left _ _ hlt']
        rfl
  | @ends n x launch made hn _ _ =>
      refine .nothing ?_ rfl
      have hmap := map_set_of_getElem? (y := { x with ended := true })
        (fun x => (x.into, x.output)) hn rfl
      exact congrArg (· ++ _) hmap
  | supplied supply => exact .nothing rfl rfl

/-! ## What files and console hold -/

/-- What of a slot shows on the console. -/
def shown : Option (Destination × List Write) → List Write
  | some (.inherited, ws) => ws
  | _ => []

def Disjoint (p : Play) : Prop :=
  ∀ (i j : Nat) (loc : Location) (ws vs : List Write),
    p.slots[i]? = some (.file loc, ws) → p.slots[j]? = some (.file loc, vs) → i = j

/-- **Each file holds what was put out from its slot**, as long as no two slots go into the same
file, and what the console has gained since the beginning falls apart into what was put out from the
slots that go there. -/
structure Kept (old : Console) (p : Play) : Prop where
  files : p.Disjoint → ∀ (i : Nat) (loc : Location) (ws : List Write),
    p.slots[i]? = some (.file loc, ws) →
    ∃ mode, p.scene.tree.node? loc = some (.file mode (.octets (Write.dataOf ws)))
  console : ∃ tagged : List (Nat × Write),
    p.console = (tagged.map Prod.snd).foldl Console.add old ∧
      ∀ i, (tagged.filter fun x => x.1 = i).map Prod.snd = shown p.slots[i]?

theorem node?_of_emptied {into : Destination} {t u : FileTree} (h : Emptied into t u)
    {loc : Location} (hloc : into ≠ .file loc) : u.node? loc = t.node? loc := by
  cases into with
  | inherited => rw [show u = t from h]
  | device d => rw [show u = t from h]
  | file other =>
      obtain ⟨mode, -, hother⟩ := h
      exact hother loc fun heq => hloc (by rw [heq])

theorem node?_write (s : Scene) {into : Destination} {loc : Location} (hloc : into ≠ .file loc)
    (offset : Nat) (w : Write) : (s.write into offset w).tree.node? loc = s.tree.node? loc := by
  cases into with
  | inherited => rfl
  | device d => rfl
  | file other =>
      have hne : loc ≠ other := fun heq => hloc (by rw [heq])
      refine (FileTree.node?_writeAt s.tree other loc offset w.data).trans ?_
      split
      · rw [if_neg hne]
      · rfl

/-- A file to which a write is appended. -/
theorem node?_write_file {s : Scene} {loc : Location} {mode : Mode} {ws : List Write}
    (h : s.tree.node? loc = some (.file mode (.octets (Write.dataOf ws)))) (w : Write) :
    (s.write (.file loc) (Write.dataOf ws).length w).tree.node? loc =
      some (.file mode (.octets (Write.dataOf (ws ++ [w])))) := by
  refine (FileTree.node?_writeAt s.tree loc loc _ w.data).trans ?_
  rw [h]
  simp [FileTree.overwrite_length]

variable {old : Console} {p q : Play} {into : Destination}

theorem kept_of_opened (h : Kept old p) (hslots : q.slots = p.slots ++ [(into, [])])
    (hconsole : q.console = p.console)
    (htree : Emptied into p.shell.system.tree q.shell.system.tree) : Kept old q := by
  constructor
  · intro hdis i loc ws hi
    have hlast : q.slots[p.slots.length]? = some (into, []) := by simp [hslots]
    -- an earlier slot goes into another file; the new one goes into a file that is empty now
    rcases Nat.lt_trichotomy i p.slots.length with hlt | rfl | hgt
    · have hdis' : p.Disjoint := by
        intro i j loc ws vs hi hj
        have := (List.getElem?_eq_some_iff.mp hi).1
        have := (List.getElem?_eq_some_iff.mp hj).1
        apply hdis i j loc ws vs
        · rwa [hslots, List.getElem?_append_left (by omega)]
        · rwa [hslots, List.getElem?_append_left (by omega)]
      have hother : into ≠ .file loc := by
        rintro rfl
        have := hdis i p.slots.length loc ws [] hi hlast
        omega
      have hi' : p.slots[i]? = some (.file loc, ws) := by
        rwa [hslots, List.getElem?_append_left hlt] at hi
      obtain ⟨mode, hn⟩ := h.files hdis' i loc ws hi'
      exact ⟨mode, (node?_of_emptied htree hother).trans hn⟩
    · obtain ⟨rfl, rfl⟩ := Prod.mk.inj (Option.some.inj (hlast.symm.trans hi))
      obtain ⟨mode, hn, -⟩ := htree
      exact ⟨mode, hn⟩
    · have := (List.getElem?_eq_some_iff.mp hi).1
      simp [hslots] at this
      omega
  · obtain ⟨tagged, htagged, hshown⟩ := h.console
    refine ⟨tagged, hconsole.trans htagged, fun i => (hshown i).trans ?_⟩
    rcases Nat.lt_or_ge i p.slots.length with hlt | hge
    · rw [hslots, List.getElem?_append_left hlt]
    · -- the new slot shows nothing yet, and neither did the slot that was not there
      rw [List.getElem?_eq_none hge, hslots, List.getElem?_append_right hge]
      rcases Nat.eq_zero_or_pos (i - p.slots.length) with h0 | hpos
      · rw [h0]
        cases into <;> rfl
      · rw [List.getElem?_eq_none (Nat.succ_le_of_lt hpos)]

section Written

variable {i : Nat} {ws : List Write} {w : Write}

theorem getElem?_slots_self (hi : p.slots[i]? = some (into, ws))
    (hslots : q.slots = p.slots.set i (into, ws ++ [w])) :
    q.slots[i]? = some (into, ws ++ [w]) := by
  rw [hslots, List.getElem?_set_self (List.getElem?_eq_some_iff.mp hi).1]

theorem getElem?_slots_ne (hslots : q.slots = p.slots.set i (into, ws ++ [w])) {j : Nat}
    (hj : j ≠ i) : q.slots[j]? = p.slots[j]? := by
  rw [hslots, List.getElem?_set_ne (Ne.symm hj)]

/-- A write does not change where the slots go. -/
theorem Disjoint.of_written (h : q.Disjoint) (hi : p.slots[i]? = some (into, ws))
    (hslots : q.slots = p.slots.set i (into, ws ++ [w])) : p.Disjoint := by
  have hback : ∀ (k : Nat) (loc : Location) (us : List Write),
      p.slots[k]? = some (.file loc, us) → ∃ us', q.slots[k]? = some (.file loc, us') := by
    intro k loc us hk
    by_cases hki : k = i
    · subst hki
      obtain ⟨rfl, rfl⟩ := Prod.mk.inj (Option.some.inj (hi.symm.trans hk))
      exact ⟨_, getElem?_slots_self hi hslots⟩
    · exact ⟨us, (getElem?_slots_ne hslots hki).trans hk⟩
  intro a b loc ws vs ha hb
  obtain ⟨_, ha'⟩ := hback a loc ws ha
  obtain ⟨_, hb'⟩ := hback b loc vs hb
  exact h a b loc _ _ ha' hb'

/-- The file of a slot holds what was put out so far, so a write lands right behind it. -/
theorem Kept.node?_of_written (h : Kept old p) (hi : p.slots[i]? = some (into, ws))
    (hslots : q.slots = p.slots.set i (into, ws ++ [w]))
    (hscene : q.scene = p.scene.write into (Write.dataOf ws).length w) (hdis : q.Disjoint) {j : Nat}
    {loc : Location} {vs : List Write} (hj : q.slots[j]? = some (.file loc, vs)) :
    ∃ mode, q.scene.tree.node? loc = some (.file mode (.octets (Write.dataOf vs))) := by
  have hdis' : p.Disjoint := hdis.of_written hi hslots
  have hsame := getElem?_slots_self hi hslots
  rw [hscene]
  by_cases hji : j = i
  · subst hji
    obtain ⟨rfl, rfl⟩ := Prod.mk.inj (Option.some.inj (hsame.symm.trans hj))
    obtain ⟨mode, hn⟩ := h.files hdis' j loc ws hi
    exact ⟨mode, node?_write_file hn w⟩
  · have hne : into ≠ .file loc := by
      rintro rfl
      exact hji (hdis j i loc vs _ hj hsame)
    obtain ⟨mode, hn⟩ := h.files hdis' j loc vs ((getElem?_slots_ne hslots hji).symm.trans hj)
    exact ⟨mode, (node?_write _ hne _ w).trans hn⟩

/-- A write that is redirected does not show on the console. -/
theorem console_write_of_ne (s : Scene) (hinto : into ≠ .inherited) (offset : Nat) (w : Write) :
    (s.write into offset w).console = s.console := by
  cases into with
  | inherited => exact absurd rfl hinto
  | device d => rfl
  | file loc => rfl

theorem shown_of_ne (hinto : into ≠ .inherited) (ws : List Write) :
    shown (some (into, ws)) = [] := by
  cases into with
  | inherited => exact absurd rfl hinto
  | device d => rfl
  | file loc => rfl

theorem kept_of_written (h : Kept old p) (hi : p.slots[i]? = some (into, ws))
    (hslots : q.slots = p.slots.set i (into, ws ++ [w]))
    (hscene : q.scene = p.scene.write into (Write.dataOf ws).length w) : Kept old q := by
  refine ⟨fun hdis j loc vs hj => h.node?_of_written hi hslots hscene hdis hj, ?_⟩
  have hsame := getElem?_slots_self hi hslots
  have hconsole : q.console = (p.scene.write into (Write.dataOf ws).length w).console :=
    congrArg Scene.console hscene
  obtain ⟨tagged, htagged, hshown⟩ := h.console
  by_cases hinto : into = .inherited
  · subst hinto
    refine ⟨tagged ++ [(i, w)], ?_, fun j => ?_⟩
    · rw [hconsole, List.map_append, List.foldl_append, ← htagged]
      rfl
    · rw [List.filter_append, List.map_append, hshown j]
      by_cases hji : j = i
      · subst hji
        rw [hi, hsame]
        simp [shown]
      · rw [getElem?_slots_ne hslots hji]
        simp [Ne.symm hji]
  · have hq : q.console = p.console := hconsole.trans (console_write_of_ne _ hinto _ w)
    refine ⟨tagged, hq.trans htagged, fun j => (hshown j).trans ?_⟩
    by_cases hji : j = i
    · subst hji
      rw [hi, hsame, shown_of_ne hinto, shown_of_ne hinto]
    · rw [getElem?_slots_ne hslots hji]

end Written

/-- **Every turn keeps the output where it belongs.** -/
theorem kept_of_delivers (hd : Delivers p q) (h : Kept old p) : Kept old q := by
  cases hd with
  | nothing hslots hscene =>
      have hconsole : q.console = p.console := congrArg Scene.console hscene
      constructor
      · intro hdis i loc ws hi
        rw [hscene]
        rw [hslots] at hi
        refine h.files ?_ i loc ws hi
        unfold Disjoint at hdis ⊢
        rwa [hslots] at hdis
      · rw [hconsole, hslots]
        exact h.console
  | opened into hslots hconsole htree => exact kept_of_opened h hslots hconsole htree
  | written i into ws w hi hslots hscene => exact kept_of_written h hi hslots hscene

end Play

end ParallelShell
