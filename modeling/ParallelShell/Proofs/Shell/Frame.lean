import ParallelShell.Proofs.FileTree.Rooted
import ParallelShell.Proofs.Output.Slots
import ParallelShell.Proofs.Shell.Rejection

set_option autoImplicit false

/-! # What a line leaves alone

A line changes the file tree in one place only for each target that it opens (`Play.IsOpened`): the
place to which the target leads, through links, from the directory in which the shell is at that
moment. What stands anywhere else stands there afterwards. In the places themselves there is a file
afterwards (`Filled`): a new one where nothing was, with the mode of a new file, and otherwise the
one that was there, with the mode that a write leaves it.

That is not always the mode it had. A mark that lets a program run with the rights of its owner is
taken away by the system when the file is emptied (`not_keepsMode`). A file that has no such mark
keeps its mode (`Mode.afterWrite_of_unmarked`).

The main statement is `framed_of_line`.
-/

namespace ParallelShell

/-- **What output makes of a place**: a new file where nothing was; a file that was there has
another content, and the mode that is left by a write. -/
inductive Filled : Option Node → Option Node → Prop
  | created (data : Octets) : Filled none (some (.file .new (.octets data)))
  | replaced (mode : Mode) (content : Content) (data : Octets) :
      Filled (some (.file mode content)) (some (.file mode.afterWrite (.octets data)))

theorem Filled.trans {a b c : Option Node} (h : Filled a b) (h' : Filled b c) : Filled a c := by
  cases h with
  | created data =>
      cases h' with
      | replaced _ _ data => exact Mode.afterWrite_new ▸ .created data
  | replaced mode content data =>
      cases h' with
      | replaced _ _ data =>
          rw [Mode.afterWrite_afterWrite]
          exact .replaced mode content data

theorem Filled.exists_file {a b : Option Node} (h : Filled a b) :
    ∃ mode data, b = some (.file mode (.octets data)) := by
  cases h with
  | created data => exact ⟨.new, data, rfl⟩
  | replaced mode _ data => exact ⟨mode.afterWrite, data, rfl⟩

theorem Filled.exists_octets {b : Option Node} {mode : Mode} {content : Content}
    (h : Filled (some (.file mode content)) b) :
    ∃ data, b = some (.file mode.afterWrite (.octets data)) := by
  cases h with
  | replaced _ _ data => exact ⟨data, rfl⟩

/-- More output changes the content only. -/
theorem Filled.write {a b : Option Node} (h : Filled a b) {mode : Mode} {content : Content}
    (hb : b = some (.file mode content)) (data : Octets) :
    Filled a (some (.file mode (.octets data))) := by
  cases h with
  | created _ =>
      obtain ⟨rfl, -⟩ := Node.file.inj (Option.some.inj hb)
      exact .created data
  | replaced old c _ =>
      obtain ⟨rfl, -⟩ := Node.file.inj (Option.some.inj hb)
      exact .replaced old c data

/-- **Two trees are alike** but for some places, and in those there has been output. -/
structure Framed (W : Location → Prop) (t u : FileTree) : Prop where
  others : ∀ loc, ¬ W loc → u.node? loc = t.node? loc
  filled : ∀ loc, W loc → Filled (t.node? loc) (u.node? loc)

namespace Framed

variable {W W' : Location → Prop} {t u : FileTree} {loc : Location}

theorem refl (t : FileTree) : Framed (fun _ => False) t t := ⟨fun _ _ => rfl, fun _ h => h.elim⟩

theorem congr (h : Framed W t u) (hW : ∀ loc, W' loc ↔ W loc) : Framed W' t u :=
  ⟨fun loc hloc => h.others loc (mt (hW loc).mpr hloc),
    fun loc hloc => h.filled loc ((hW loc).mp hloc)⟩

/-- A file is emptied, or created. -/
theorem emptied (h : Framed W t u) {mode : Mode} (hloc : loc ≠ [])
    (hfilled : Filled (u.node? loc) (some (.file mode (.octets []))))
    (hW : ∀ other, W' other ↔ W other ∨ other = loc) :
    Framed W' t (u.put loc (.file mode (.octets []))) where
  others := by
    intro other hother
    rw [hW, not_or] at hother
    rw [FileTree.node?_put _ _ _ _ hloc, if_neg hother.2, h.others other hother.1]
  filled := by
    intro other hother
    rw [FileTree.node?_put _ _ _ _ hloc]
    by_cases heq : other = loc
    · subst heq
      rw [if_pos rfl]
      -- the place has been filled before, or it is as it was
      by_cases hw : W other
      · exact (h.filled other hw).trans hfilled
      · exact h.others other hw ▸ hfilled
    · rw [if_neg heq]
      exact h.filled other (((hW other).mp hother).resolve_right heq)

/-- Something is written into a file that has been opened. -/
theorem writeAt (h : Framed W t u) (hloc : W loc) (offset : Nat) (data : Octets) :
    Framed W t (u.writeAt loc offset data) := by
  unfold FileTree.writeAt
  split
  · rename_i hn
    have hne := FileTree.ne_nil_of_node?_file hn
    refine ⟨fun other hother => ?_, fun other hother => ?_⟩
    · have hother' : other ≠ loc := by
        rintro rfl
        exact hother hloc
      rw [FileTree.node?_put _ _ _ _ hne, if_neg hother', h.others other hother]
    · rw [FileTree.node?_put _ _ _ _ hne]
      by_cases heq : other = loc
      · subst heq
        rw [if_pos rfl]
        exact (h.filled other hother).write hn _
      · rw [if_neg heq]
        exact h.filled other hother
  · exact h

/-- A file without marks keeps its mode. -/
theorem unmarked (h : Framed W t u) {mode : Mode} {content : Content}
    (hn : t.node? loc = some (.file mode content)) (hmode : mode < 0o2000) :
    ∃ content', u.node? loc = some (.file mode content') := by
  by_cases hw : W loc
  · have hfilled := h.filled loc hw
    rw [hn] at hfilled
    obtain ⟨data, hdata⟩ := hfilled.exists_octets
    exact ⟨.octets data, by rw [hdata, Mode.afterWrite_of_unmarked hmode]⟩
  · exact ⟨content, (h.others loc hw).trans hn⟩

/-- A file in a place where output has gone stands in a directory that was there before. -/
theorem node?_directory (h : Framed W t u) (hu : u.IsRooted) {name : Text} {directory : Location}
    (hloc : W (name :: directory)) : t.node? directory = some .directory := by
  obtain ⟨mode, data, hfile⟩ := (h.filled _ hloc).exists_file
  have hdirectory := hu name directory _ hfile
  -- what is filled is a file, so the directory is one of the places that are as they were
  have hother : ¬ W directory := fun hw => by
    obtain ⟨mode, data, hfile⟩ := (h.filled _ hw).exists_file
    cases hfile.symm.trans hdirectory
  rw [← h.others directory hother, hdirectory]

end Framed

namespace Play

variable {writes : Nat → Launch → List Write} {p q r : Play} {schedule : List Turn}
  {W W' : Location → Prop} {t : FileTree} {c : Command} {into : Destination} {loc : Location}

/-- **A target was opened there**, at some time along a schedule. -/
def IsOpened (writes : Nat → Launch → List Write) (p : Play) (schedule : List Turn)
    (loc : Location) : Prop :=
  ∃ n c x s, Opens writes p schedule n c x ∧ x.shell.openTarget c.target = .ok (s, .file loc)

/-- Where the output of those commands goes whose target has been opened. -/
def destinations (p : Play) : List Destination :=
  p.parts.map Part.into ++ p.phase.into?.toList

/-- **Output goes only where a target was opened**, and nothing else has changed. -/
structure KeepsTo (W : Location → Prop) (t : FileTree) (p : Play) : Prop where
  framed : Framed W t p.shell.system.tree
  opened : ∀ loc, .file loc ∈ p.destinations → W loc

theorem KeepsTo.write (h : KeepsTo W t p) (hinto : into ∈ p.destinations) (offset : Nat)
    (w : Write) : Framed W t (p.scene.write into offset w).tree := by
  cases into with
  | inherited => exact h.framed
  | device d => exact h.framed
  | file loc => exact h.framed.writeAt (h.opened loc hinto) offset w.data

/-! ## Turns -/

theorem destinations_carryOut (writes : Nat → Launch → List Write) (hp : p.phase = .opened c into) :
    (p.carryOut writes c into).destinations = p.destinations ∧
      (p.carryOut writes c into).shell.system.tree = p.shell.system.tree := by
  have hdone := carriedOut writes p c into
  generalize p.carryOut writes c into = q at hdone ⊢
  cases hdone with
  | part htree _ hphase =>
      rcases hphase with rfl | ⟨status, rfl, -⟩ <;> simp [destinations, hp, Phase.into?, htree]
  | failing => simp [destinations, hp, Phase.into?]

/-- A turn that is not the shell's. -/
theorem KeepsTo.of_ne_shell (h : KeepsTo W t p) {turn : Turn} (hturn : turn ≠ .shell)
    (hstep : p.step writes turn = some q) : KeepsTo W t q := by
  cases turn with
  | shell => exact absurd rfl hturn
  | system supply =>
      obtain rfl := Option.some.inj hstep
      exact ⟨h.framed, h.opened⟩
  | program n =>
      cases step_program_iff.mp hstep with
      | @written x launch made pending w hn hcourse =>
          have hx : x.into ∈ p.destinations :=
            List.mem_append_left _ (List.mem_map_of_mem (List.mem_of_getElem? hn))
          refine ⟨h.write hx _ w, ?_⟩
          simp only [destinations, parts_withWritten]
          rw [map_set_of_getElem? Part.into hn (by rfl)]
          exact h.opened
      | @ends x launch made hn _ _ =>
          refine ⟨h.framed, ?_⟩
          have hmap := map_set_of_getElem? (y := { x with ended := true }) Part.into hn rfl
          simp only [destinations, parts_withEnded]
          rw [hmap]
          exact h.opened

/-- The shell opens a target as a file in the turn it takes. -/
def OpensFile (p : Play) (loc : Location) : Prop :=
  p.phase = .ready ∧ ∃ c s, p.left.head? = some c ∧ p.shell.openTarget c.target = .ok (s, .file loc)

theorem filled_of_openTarget {s s' : Shell} {target : Option Text}
    (h : s.openTarget target = .ok (s', .file loc)) : ∃ mode, loc ≠ [] ∧
      s'.system.tree = s.system.tree.put loc (.file mode (.octets [])) ∧
      Filled (s.system.tree.node? loc) (some (.file mode (.octets []))) := by
  obtain ⟨path, mode, -, hs, ⟨directory, name, hl, rfl, rfl⟩ | ⟨old, content, hl, rfl⟩⟩ :=
    Shell.openTarget_eq_ok_file h
  · have hn : s.system.tree.node? (name :: directory) = none := FileTree.stands_of_locate hl
    exact ⟨.new, List.cons_ne_nil _ _, congrArg System.tree hs, hn ▸ .created []⟩
  · have hn : s.system.tree.node? loc = some (.file old content) := FileTree.stands_of_locate hl
    exact ⟨old.afterWrite, FileTree.ne_nil_of_node?_file hn, congrArg System.tree hs,
      hn ▸ .replaced old content []⟩

/-- A target that is opened is one more place, if it is a file. -/
theorem framed_of_openTarget {s s' : Shell} {target : Option Text} (h : Framed W t s.system.tree)
    (ho : s.openTarget target = .ok (s', into)) (hW : ∀ loc, W' loc ↔ W loc ∨ into = .file loc) :
    Framed W' t s'.system.tree := by
  have hemptied : Emptied into s.system.tree s'.system.tree := emptied_of_openTarget ho
  cases into with
  | inherited =>
      have hframed : Framed W' t s.system.tree := h.congr fun loc => by simp [hW]
      exact hemptied ▸ hframed
  | device d =>
      have hframed : Framed W' t s.system.tree := h.congr fun loc => by simp [hW]
      exact hemptied ▸ hframed
  | file loc =>
      obtain ⟨mode, hne, htree, hfilled⟩ := filled_of_openTarget ho
      rw [htree]
      refine h.emptied hne hfilled fun other => ?_
      rw [hW, Destination.file.injEq, eq_comm (a := loc)]

/-- **The turn of the shell**: nothing but the file of the target is opened. -/
theorem KeepsTo.shell (h : KeepsTo W t p) (hstep : p.step writes .shell = some q)
    (hW : ∀ loc, W' loc ↔ W loc ∨ p.OpensFile loc) : KeepsTo W' t q := by
  have hold : ∀ loc, .file loc ∈ p.destinations → W' loc := fun loc hloc =>
    (hW loc).mpr (Or.inl (h.opened loc hloc))
  -- a turn in which no file is opened
  have hsame : (∀ loc, ¬ p.OpensFile loc) → Framed W' t p.shell.system.tree := fun hnone =>
    h.framed.congr fun loc => by simp [hW, hnone]
  cases acted_of_step hstep with
  | finish hp hl _ =>
      refine ⟨hsame fun loc => by simp [OpensFile, hl], ?_⟩
      simpa [destinations, hp, Phase.into?] using hold
  | unopened hp hl ho =>
      refine ⟨hsame fun loc => by simp [OpensFile, hl, ho], ?_⟩
      simpa [destinations, hp, Phase.into?] using hold
  | carriedOut hp =>
      obtain ⟨hdest, htree⟩ := destinations_carryOut writes hp
      refine ⟨htree ▸ hsame fun loc => by simp [OpensFile, hp], ?_⟩
      rw [hdest]
      exact hold
  | @notified c fault into hp =>
      have hinto : into ∈ p.destinations := by simp [destinations, hp, Phase.into?]
      have hwritten : KeepsTo W' t p := ⟨hsame fun loc => by simp [OpensFile, hp], hold⟩
      rw [notify_eq]
      refine ⟨hwritten.write hinto 0 Part.notice, ?_⟩
      simpa [destinations, hp, Phase.into?, withPart, withScene] using hold
  | @opened c left s into hp hl ho =>
      have hdest : ({ p with shell := s, phase := .opened c into, left } : Play).destinations =
          p.destinations ++ [into] := by simp [destinations, hp, Phase.into?]
      have hopens : ∀ loc, p.OpensFile loc ↔ into = .file loc := fun loc => by
        simp [OpensFile, hp, hl, ho]
      refine ⟨framed_of_openTarget h.framed ho fun loc => by rw [hW, hopens], fun loc hloc => ?_⟩
      rw [hdest, List.mem_append, List.mem_singleton] at hloc
      rcases hloc with hloc | hloc
      · exact hold loc hloc
      · exact (hW loc).mpr (Or.inr ((hopens loc).mpr hloc.symm))

/-! ## Schedules -/

theorem isOpened_concat_of_ne_shell (h : p.follow writes schedule = some q) {turn : Turn}
    (hturn : turn ≠ .shell) :
    IsOpened writes p (schedule ++ [turn]) loc ↔ IsOpened writes p schedule loc := by
  constructor
  · rintro ⟨n, c, x, s, hx, ho⟩
    have hacts := ((acts_concat_iff h).mp hx.acts).resolve_right fun hnow => hturn hnow.1
    exact ⟨n, c, x, s, ⟨hacts, hx.phase, hx.next, hx.number⟩, ho⟩
  · rintro ⟨n, c, x, s, hx, ho⟩
    exact ⟨n, c, x, s, hx.append_right _, ho⟩

theorem isOpened_concat_shell (h : p.follow writes schedule = some q) :
    IsOpened writes p (schedule ++ [.shell]) loc ↔
      IsOpened writes p schedule loc ∨ q.OpensFile loc := by
  constructor
  · rintro ⟨n, c, x, s, hx, ho⟩
    rcases (acts_concat_iff h).mp hx.acts with hacts | ⟨-, rfl⟩
    · exact Or.inl ⟨n, c, x, s, ⟨hacts, hx.phase, hx.next, hx.number⟩, ho⟩
    · exact Or.inr ⟨hx.phase, c, s, hx.next, ho⟩
  · rintro (⟨n, c, x, s, hx, ho⟩ | ⟨hphase, c, s, hnext, ho⟩)
    · exact ⟨n, c, x, s, hx.append_right _, ho⟩
    · have hacts : Acts writes p (schedule ++ [.shell]) q :=
        (acts_concat_iff h).mpr (Or.inr ⟨rfl, rfl⟩)
      exact ⟨q.parts.length, c, q, s, ⟨hacts, hphase, hnext, rfl⟩, ho⟩

/-- **Along a schedule**, output keeps to the places where targets have been opened. -/
theorem keepsTo_of_follow {s : Shell} {console : Console} {cs : List Command}
    (h : (start s console cs).follow writes schedule = some p) :
    KeepsTo (IsOpened writes (start s console cs) schedule) s.system.tree p := by
  refine follow_induction (P := fun schedule p =>
    KeepsTo (IsOpened writes (start s console cs) schedule) s.system.tree p) ?_ ?_ h
  · have hnone : ∀ loc, IsOpened writes (start s console cs) [] loc ↔ False := fun loc => by
      constructor
      · rintro ⟨n, c, x, s, hx, -⟩
        cases hx.acts
      · exact False.elim
    exact ⟨(Framed.refl _).congr hnone, by simp [start, destinations, Phase.into?]⟩
  · intro schedule turn q r hfollow hstep hq
    by_cases hturn : turn = .shell
    · subst hturn
      exact hq.shell hstep fun loc => isOpened_concat_shell hfollow
    · have hr := hq.of_ne_shell hturn hstep
      exact ⟨hr.framed.congr fun loc => isOpened_concat_of_ne_shell hfollow hturn,
        fun loc hloc => (isOpened_concat_of_ne_shell hfollow hturn).mpr (hr.opened loc hloc)⟩

end Play

/-! ## Directories -/

/-- Every entry stands in a directory, and so does the shell. -/
structure System.IsSound (s : System) : Prop where
  rooted : s.tree.IsRooted
  directory : s.tree.node? s.directory = some .directory

namespace Shell

variable {s s' : Shell} {target : Option Text} {c : Command} {into : Destination}
  {action : Action} {loc : Location}

theorem isPlace_of_openTarget (hs : s.system.IsSound)
    (h : s.openTarget target = .ok (s', .file loc)) : s.system.tree.IsPlace loc := by
  obtain ⟨path, mode, -, -, ⟨directory, name, hl, rfl, -⟩ | ⟨old, content, hl, -⟩⟩ :=
    openTarget_eq_ok_file h
  · obtain ⟨hdirectory, hfree⟩ := hs.rooted.standsIn (f := .absent directory name) hs.directory hl
    exact .free rfl hdirectory hfree
  · exact .taken (FileTree.stands_of_locate (f := .file loc old content) hl)

theorem isSound_of_openTarget (hs : s.system.IsSound) (h : s.openTarget target = .ok (s', into)) :
    s'.system.IsSound := by
  have htree := Play.emptied_of_openTarget h
  obtain ⟨tree, rfl⟩ := exists_tree_of_openTarget h
  cases into with
  | inherited =>
      obtain rfl : tree = s.system.tree := htree
      exact hs
  | device d =>
      obtain rfl : tree = s.system.tree := htree
      exact hs
  | file loc =>
      have hplace := isPlace_of_openTarget hs h
      obtain ⟨mode, -, rfl, -⟩ := Play.filled_of_openTarget h
      exact ⟨hs.rooted.put hplace _ _, hplace.node?_put _ _ hs.directory⟩

theorem isSound_of_carryOut (hs : s.system.IsSound) (h : s.carryOut c into = .ok (s', action)) :
    s'.system.IsSound := by
  rcases carryOut_eq_ok h with ⟨_, _, _, _, rfl, _⟩ | ⟨_, _, rfl, _⟩ | ⟨_, _, _, _, hd, rfl, _⟩ |
    ⟨_, rfl, _⟩
  · exact ⟨hs.rooted, hs.directory⟩
  · exact hs
  · exact ⟨hs.rooted, hs.rooted.findDirectory hs.directory hd⟩
  · exact hs

end Shell

namespace Play

variable {writes : Nat → Launch → List Write} {p q : Play} {schedule : List Turn}
  {loc directory : Location}

theorem isSound_write (hp : p.shell.system.IsSound) (into : Destination) (offset : Nat)
    (w : Write) : (p.withScene (p.scene.write into offset w)).shell.system.IsSound := by
  cases into with
  | inherited => exact hp
  | device d => exact hp
  | file loc =>
      exact ⟨hp.rooted.writeAt loc offset w.data,
        FileTree.node?_writeAt_directory hp.directory loc offset w.data⟩

theorem isSound_of_step (h : Step writes p q) (hp : p.shell.system.IsSound) :
    q.shell.system.IsSound := by
  cases h with
  | finish _ _ _ => exact hp
  | unopened _ _ _ => exact hp
  | opened _ _ ho => exact Shell.isSound_of_openTarget hp ho
  | @carriedOut c into _ =>
      have hcomes := comesTo_carryOut writes p c into
      generalize p.carryOut writes c into = q at hcomes ⊢
      cases hcomes with
      | started hc => exact Shell.isSound_of_carryOut hp hc
      | done hc => exact Shell.isSound_of_carryOut hp hc
      | exit hc => exact Shell.isSound_of_carryOut hp hc
      | fatal _ _ => exact hp
      | failed _ _ => exact hp
  | notified _ =>
      rw [notify_eq]
      exact isSound_write hp _ 0 Part.notice
  | written _ _ => exact isSound_write hp _ _ _
  | ends _ _ _ => exact ⟨hp.rooted, hp.directory⟩
  | supplied _ => exact ⟨hp.rooted, hp.directory⟩

/-! ## Lines -/

/-- **What a line may change in the file tree**, along a schedule that leads from one play to
another. -/
structure TouchesTargets (writes : Nat → Launch → List Write) (p : Play) (schedule : List Turn)
    (q : Play) : Prop where
  /-- Nothing but the places of opened targets has changed, and in those there is a file now. -/
  framed : Framed (IsOpened writes p schedule) p.shell.system.tree q.shell.system.tree
  /-- These are the places to which targets led when they were opened. -/
  leads : ∀ loc, IsOpened writes p schedule loc → ∃ n c x path, Opens writes p schedule n c x ∧
    c.target = some path ∧ x.shell.system.targetFile? path = some loc
  /-- A target that cannot be opened changes nothing. -/
  unopened : ∀ n c x fault y, Opens writes p schedule n c x →
    x.shell.openTarget c.target = .error fault → x.step writes .shell = some y → y.shell = x.shell
  /-- A file without marks keeps its mode. -/
  unmarked : ∀ loc mode content, p.shell.system.tree.node? loc = some (.file mode content) →
    mode < 0o2000 → ∃ content', q.shell.system.tree.node? loc = some (.file mode content')
  /-- If every entry stands in a directory, then so it does afterwards, and a target that was
  created stands in one that was there before. -/
  sound : p.shell.system.IsSound → q.shell.system.IsSound ∧ ∀ name directory,
    IsOpened writes p schedule (name :: directory) →
      p.shell.system.tree.node? directory = some .directory

theorem touchesTargets_of_follow {s : Shell} {console : Console} {cs : List Command}
    (h : (start s console cs).follow writes schedule = some p) :
    TouchesTargets writes (start s console cs) schedule p where
  framed := (keepsTo_of_follow h).framed
  leads := by
    rintro loc ⟨n, c, x, s', hx, ho⟩
    rcases Shell.openTarget_eq_ok ho with ⟨-, hinto, -⟩ | ⟨_, _, _, -, -, hinto, -⟩ |
      ⟨path, loc', _, ht, hf, hinto, -⟩
    · cases hinto
    · cases hinto
    · obtain rfl := Destination.file.inj hinto
      exact ⟨n, c, x, path, hx, ht, hf⟩
  unopened := by
    intro n c x fault y hx ho hstep
    cases acted_of_step hstep with
    | finish _ _ _ => rfl
    | unopened _ _ _ => rfl
    | opened _ hl ho' =>
        have hnext := hx.next
        rw [hl, List.head?_cons] at hnext
        obtain rfl := Option.some.inj hnext
        cases ho.symm.trans ho'
    | carriedOut hp => cases hx.phase.symm.trans hp
    | notified hp => cases hx.phase.symm.trans hp
  unmarked := fun loc mode content hn hmode => (keepsTo_of_follow h).framed.unmarked hn hmode
  sound := by
    intro hs
    have hp : p.shell.system.IsSound := follow_preserves
      (P := fun q => q.shell.system.IsSound) (fun _ _ hstep => isSound_of_step hstep) h hs
    exact ⟨hp, fun name directory hloc =>
      (keepsTo_of_follow h).framed.node?_directory hp.rooted hloc⟩

end Play

/-- **A line leaves the file tree alone**, but for the targets that it opens. A line that is
rejected changes nothing. Otherwise take any moment of the line, also its end: what stands in the
tree is what stood there before, except in the places to which the targets of the commands reached
so far have led, through links and from the directory in which the shell was then. In such a place a
file has been created, with the mode of a new file and in a directory that was there, or the file
that was there has been written to, and of its mode only the marks are gone that a write takes
away. -/
theorem framed_of_line (s : Shell) (line : Text) :
    (∀ m, Line.commands line = .error m →
        ∀ r, s.Plays line r → r.shell.system.tree = s.system.tree) ∧
      ∀ cs, Line.commands line = .ok cs → ∀ console writes schedule p,
        (Play.start s console cs).follow writes schedule = some p →
          Play.TouchesTargets writes (Play.start s console cs) schedule p ∧ ∀ status,
            (p.result status).shell.system.tree = p.shell.system.tree := by
  refine ⟨fun m hline r hr => ?_, fun cs _ console writes schedule p h => ⟨?_, ?_⟩⟩
  · rw [(s.plays_iff_of_error hline r).mp hr]
    rfl
  · exact Play.touchesTargets_of_follow h
  · intro status
    rw [Play.shell_result]

/-- A program into a file below, a change of directory, a command that nobody knows into a file of
the new directory, and an exit; the last target is never opened. -/
def probeCdNopeExit : List Command :=
  [{ name := text "probe", operands := [], target := some (text "bin/out") },
    { name := text "cd", operands := [text "bin"], target := none },
    { name := text "nope", operands := [], target := some (text "new") },
    { name := text "exit", operands := [], target := none },
    { name := text "probe", operands := [], target := some (text "never") }]

theorem framed_probeCdNopeExit : ∃ p,
    (Play.start .overProbe (.ofInput []) probeCdNopeExit).follow Play.oneWrite
        (List.replicate 9 .shell) = some p ∧
      Play.TouchesTargets Play.oneWrite (Play.start .overProbe (.ofInput []) probeCdNopeExit)
        (List.replicate 9 .shell) p ∧
      Shell.overProbe.system.IsSound ∧ p.shell.system.IsSound ∧
      p.shell.system.tree.node? [text "new", text "bin"] =
        some (.file .new (.octets Fault.notice)) ∧
      p.shell.system.tree.node? [text "never", text "bin"] = none := by
  have hline : Line.commands (text "probe > bin/out & cd bin & nope > new & exit & probe > never") =
      .ok probeCdNopeExit := by decide
  have hnodes : ((Play.start .overProbe (.ofInput []) probeCdNopeExit).follow Play.oneWrite
      (List.replicate 9 .shell)).map (fun p =>
        (p.shell.system.tree.node? [text "new", text "bin"],
          p.shell.system.tree.node? [text "never", text "bin"])) =
      some (some (.file .new (.octets Fault.notice)), none) := by decide
  obtain ⟨p, hp, hpair⟩ := Option.map_eq_some_iff.mp hnodes
  obtain ⟨hnew, hnever⟩ := Prod.mk.inj hpair
  obtain ⟨htouches, -⟩ :=
    (framed_of_line .overProbe _).2 _ hline (.ofInput []) Play.oneWrite _ p hp
  have hsound : Shell.overProbe.system.IsSound := by
    refine ⟨fun name loc node hn => ?_, rfl⟩
    rw [Shell.overProbe, FileTree.node?_put _ _ _ _ (by simp)] at hn
    split at hn
    · rename_i heq
      obtain ⟨-, rfl⟩ := List.cons.inj heq
      decide
    · rw [FileTree.node?_put _ _ _ _ (by simp)] at hn
      split at hn
      · rename_i heq
        obtain ⟨-, rfl⟩ := List.cons.inj heq
        exact FileTree.node?_root _
      · simp [FileTree.node?, FileTree.empty, FileTree.lookup] at hn
  exact ⟨p, hp, htouches, hsound, (htouches.sound hsound).1, hnew, hnever⟩

/-- A shell that stands where there is one file, marked to run with the rights of its owner. -/
def Shell.overMarked : Shell where
  system :=
    { tree := FileTree.empty.put [text "m"] (.file 0o4755 (.octets (octets "x")))
      directory := []
      running := []
      supply := .available
      programPath := [] }
  searchPath := { directories := [] }

/-- **A target does not always keep its mode**: the mark is gone after the file was emptied. -/
theorem not_keepsMode : ¬ ∀ (s : Shell) (line : Text) (r : LineRun), s.Plays line r →
    ∀ loc mode content, s.system.tree.node? loc = some (.file mode content) →
      ∃ content', r.shell.system.tree.node? loc = some (.file mode content') := by
  intro h
  have hplays := Shell.overMarked.plays_runLine (text "nope > m")
  obtain ⟨content, hkept⟩ := h _ _ _ hplays [text "m"] 0o4755 (.octets (octets "x")) (by decide)
  have hnow : (Shell.overMarked.runLine (text "nope > m")).shell.system.tree.node? [text "m"] =
      some (.file 0o755 (.octets Fault.notice)) := by decide
  have hmode := (Node.file.inj (Option.some.inj (hkept.symm.trans hnow))).1
  exact absurd hmode (by decide)

end ParallelShell
