import ParallelShell.Proofs.Output.Slots
import ParallelShell.Proofs.Shell.Targets
import ParallelShell.Proofs.Shell.Turns

set_option autoImplicit false

/-! # Where the output of a line ends up

Every slot of a play belongs to a command of the line, and what is put out from it is the output of
that command (`Play.InOrder`): the writes of its program in the order in which they were given, or
the notice about its fault, or nothing. It goes where the target of the command leads, and the
target still leads there when the line ends. Together with what is known of the slots, this says
where all the output of a line is in the end (`delivered_of_follow`).
-/

namespace ParallelShell

namespace Play

/-! ## Whose output it is -/

/-- Where the output of a command goes: to the shell's own streams without a target, to what the
target leads to, or, if the target could not be opened, to the shell's own streams together with a
fault that says so. -/
def Sent (t : FileTree) (directory : Location) (c : Command) (into : Destination)
    (openFault : Fault → Prop) : Prop :=
  match c.target with
  | none => into = .inherited
  | some path =>
    t.Leads directory path into ∨ (into = .inherited ∧ ∃ cause, openFault (.openTarget path cause))

/-- A command that has had its turn was sent where its target says, as the tree is now. -/
def SentIn (t : FileTree) (x : Part) : Prop :=
  Sent t x.directory x.command x.into fun fault => x.course = .failed fault

/-- A command whose target has just been opened is sent where its target says. -/
def Phase.SendsIn (t : FileTree) (directory : Location) : Phase → Prop
  | .opened c into => Sent t directory c into fun _ => False
  | .failing c fault into => Sent t directory c into fun f => fault = f
  | _ => True

/-- **Each output is that of the command in its place**: the commands come in the order of the line,
their output goes where their targets say, and what programs have written and what is pending are
the writes that were given. -/
structure InOrder (writes : Nat → Launch → List Write) (cs : List Command) (p : Play) : Prop where
  commands : p.parts.map Part.command ++ (p.phase.command?.toList ++ p.left) = cs
  sent : ∀ x ∈ p.parts, SentIn p.shell.system.tree x
  sending : p.phase.SendsIn p.shell.system.tree p.shell.system.directory
  programs : ∀ (i : Nat) (x : Part), p.parts[i]? = some x →
    ∀ launch made pending, x.course = .program launch made pending →
      made ++ pending = writes i launch
  finished : p.phase = .ended .continues → p.left = [] ∧ ∀ x ∈ p.parts, x.isOver = true

variable {p q : Play} {into : Destination} {writes : Nat → Launch → List Write} {c : Command}
  {cs : List Command} {t u : FileTree} {directory : Location}

theorem Sent.mono {F G : Fault → Prop} (h : Sent t directory c into F)
    (htree : ∀ path, t.Leads directory path into → u.Leads directory path into)
    (hfault : ∀ fault, F fault → G fault) : Sent u directory c into G := by
  unfold Sent at h ⊢
  cases ht : c.target with
  | none => simpa only [ht] using h
  | some path =>
      simp only [ht] at h
      rcases h with hl | ⟨hinto, cause, hf⟩
      · exact Or.inl (htree path hl)
      · exact Or.inr ⟨hinto, cause, hfault _ hf⟩

theorem Phase.SendsIn.mono {phase : Phase} (h : phase.SendsIn t directory)
    (htree : ∀ path into, t.Leads directory path into → u.Leads directory path into) :
    phase.SendsIn u directory := by
  cases phase with
  | ready => trivial
  | opened c into =>
      have hsent : Sent t directory c into fun _ => False := h
      exact hsent.mono (fun path => htree path into) fun _ hf => hf
  | failing c fault into =>
      have hsent : Sent t directory c into fun f => fault = f := h
      exact hsent.mono (fun path => htree path into) fun _ hf => hf
  | ended status => trivial

theorem sent_of_openTarget {s s' : Shell} (h : s.openTarget c.target = .ok (s', into)) :
    Sent s'.system.tree s'.system.directory c into fun _ => False := by
  rw [(Shell.searchPath_of_openTarget h).2]
  unfold Sent
  cases ht : c.target with
  | none =>
      rw [ht, Shell.openTarget] at h
      exact (Prod.mk.inj (Except.ok.inj h)).2.symm
  | some path =>
      rw [ht] at h
      exact Or.inl (Shell.leads_of_openTarget h)

theorem sent_of_unopened {s : Shell} {fault : Fault} (h : s.openTarget c.target = .error fault) :
    Sent t directory c .inherited fun f => fault = f := by
  unfold Sent
  cases ht : c.target with
  | none => rfl
  | some path =>
      obtain ⟨other, cause, hpath, hfault⟩ := Shell.openTarget_eq_error h
      obtain rfl := Option.some.inj (ht.symm.trans hpath)
      exact Or.inr ⟨rfl, cause, hfault⟩

theorem InOrder.withPart {x : Part} (h : InOrder writes cs p) (hcommands : q.commands = p.commands)
    (hparts : q.parts = p.parts ++ [x])
    (hq : q.phase = .ready ∨ ∃ status, q.phase = .ended status ∧ status ≠ .continues)
    (hold : ∀ y ∈ p.parts, SentIn q.shell.system.tree y) (hsent : SentIn q.shell.system.tree x)
    (hwrites : ∀ launch made pending, x.course = .program launch made pending →
      made ++ pending = writes p.parts.length launch) : InOrder writes cs q where
  commands := hcommands.trans h.commands
  sent := by
    rw [hparts]
    exact List.forall_mem_append.mpr ⟨hold, List.forall_mem_singleton.mpr hsent⟩
  sending := by rcases hq with hq | ⟨status, hq, -⟩ <;> rw [hq] <;> trivial
  programs := by
    intro i y hy
    rw [hparts] at hy
    rcases getElem?_append_singleton hy with hy | ⟨rfl, rfl⟩
    · exact h.programs i y hy
    · exact hwrites
  finished := by
    intro hend
    rcases hq with hq | ⟨status, hq, hstatus⟩
    · cases hq.symm.trans hend
    · exact absurd (Phase.ended.inj (hq.symm.trans hend)) hstatus

/-- The program of a part goes on. That part has not been over, so the line has not ended. -/
theorem InOrder.withSet {n : Nat} {x y : Part} (h : InOrder writes cs p)
    (hn : p.parts[n]? = some x) (hrunning : x.isOver = false)
    (hcommands : q.commands = p.commands) (hparts : q.parts = p.parts.set n y)
    (hphase : q.phase = p.phase)
    (hsending : q.phase.SendsIn q.shell.system.tree q.shell.system.directory)
    (hold : ∀ z ∈ p.parts, SentIn q.shell.system.tree z) (hsent : SentIn q.shell.system.tree y)
    (hwrites : ∀ launch made pending, y.course = .program launch made pending →
      made ++ pending = writes n launch) : InOrder writes cs q where
  commands := hcommands.trans h.commands
  sent := by
    rw [hparts]
    exact forall_mem_set hold hsent n
  sending := hsending
  programs := by
    intro i z hz
    rw [hparts] at hz
    by_cases hin : i = n
    · subst hin
      rw [List.getElem?_set_self (List.getElem?_eq_some_iff.mp hn).1] at hz
      exact Option.some.inj hz ▸ hwrites
    · rw [List.getElem?_set_ne (Ne.symm hin)] at hz
      exact h.programs i z hz
  finished := by
    intro hend
    have hover := (h.finished (hphase ▸ hend)).2 x (List.mem_of_getElem? hn)
    rw [hrunning] at hover
    cases hover

theorem inOrder_carryOut (h : InOrder writes cs p) (hp : p.phase = .opened c into) :
    InOrder writes cs (p.carryOut writes c into) := by
  have hcommands := commands_carryOut writes hp
  have hsending : Sent p.shell.system.tree p.shell.system.directory c into fun _ => False := by
    simpa only [hp, Phase.SendsIn] using h.sending
  have hsent : ∀ {F : Fault → Prop},
      Sent p.shell.system.tree p.shell.system.directory c into F :=
    hsending.mono (fun _ hl => hl) fun _ => False.elim
  have hdone := carriedOut writes p c into
  generalize p.carryOut writes c into = q at hdone hcommands ⊢
  cases hdone with
  | part htree hfresh hphase =>
      have hold := h.sent
      rw [← htree] at hold hsent
      refine h.withPart hcommands rfl hphase hold hsent ?_
      intro launch made pending hcourse
      obtain rfl : _ = Course.program launch made pending := hcourse
      obtain ⟨rfl, rfl⟩ := hfresh
      rfl
  | failing =>
      exact ⟨hcommands.trans h.commands, h.sent, hsent, h.programs, by simp⟩

/-- **Every turn keeps the parts in order.** -/
theorem inOrder_step (hs : Step writes p q) (h : InOrder writes cs p) : InOrder writes cs q := by
  have hleads : ∀ {directory path into}, p.shell.system.tree.Leads directory path into →
      q.shell.system.tree.Leads directory path into := leads_of_step hs
  have hold : ∀ x ∈ p.parts, SentIn q.shell.system.tree x := fun x hx =>
    (h.sent x hx).mono (fun _ => hleads) fun _ hf => hf
  have hcommands := commands_of_step hs
  cases hs with
  | finish hp hl hover =>
      exact ⟨hcommands.trans h.commands, hold, trivial, h.programs, fun _ => ⟨hl, hover⟩⟩
  | unopened hp hl ho =>
      exact ⟨hcommands.trans h.commands, hold, sent_of_unopened ho, h.programs, by simp⟩
  | opened hp hl ho =>
      exact ⟨hcommands.trans h.commands, hold, sent_of_openTarget ho, h.programs, by simp⟩
  | carriedOut hp => exact inOrder_carryOut h hp
  | @notified c fault into hp =>
      have hsending : Sent p.shell.system.tree p.shell.system.directory c into
          fun f => fault = f := by simpa only [hp, Phase.SendsIn] using h.sending
      have hsent : SentIn (p.notify c fault into).shell.system.tree
          (p.shell.part c into (.failed fault)) :=
        hsending.mono (fun _ => hleads) fun f hf => congrArg _ hf
      exact h.withPart hcommands rfl (Or.inl rfl) hold hsent (by simp)
  | @written n x launch made pending w hn hcourse =>
      have hmem : x ∈ p.parts := List.mem_of_getElem? hn
      refine h.withSet hn ?_ hcommands rfl rfl (h.sending.mono fun _ _ => hleads) hold ?_ ?_
      · simp [Part.isOver, hcourse]
      · -- a program writes, so the command has not failed
        refine (hold x hmem).mono (fun _ hl => hl) fun fault hf => ?_
        cases hcourse.symm.trans hf
      · -- the write has moved from those that are pending to those that were made
        intro launch' made' pending' hcourse'
        have hgiven := h.programs n x hn launch made (w :: pending) hcourse
        injection hcourse' with hlaunch hmade hpending
        rw [← hlaunch, ← hmade, ← hpending, ← hgiven, List.append_assoc, List.singleton_append]
  | @ends n x launch made hn hcourse hended =>
      have hrunning : x.isOver = false := by simp [Part.isOver, hcourse, hended]
      have hsent := hold x (List.mem_of_getElem? hn)
      exact h.withSet hn hrunning hcommands rfl rfl h.sending hold hsent (h.programs n x hn)
  | supplied supply =>
      exact ⟨hcommands.trans h.commands, hold, h.sending, h.programs, h.finished⟩

theorem inOrder_of_follow {s : Shell} {console : Console} {schedule : List Turn}
    (h : (start s console cs).follow writes schedule = some p) : InOrder writes cs p := by
  refine follow_preserves (fun _ _ => inOrder_step) h ?_
  exact ⟨by simp [start, Phase.command?], by simp [start], trivial, by simp [start],
    by simp [start]⟩

end Play

/-! ## At the end of a line -/

/-- What comes out of a command in all, if its program makes some writes: these, or the notice if it
failed, or nothing. -/
def Part.outputOf (writes : Launch → List Write) (x : Part) : List Write :=
  match x.course with
  | .program launch _ _ => writes launch
  | .failed _ => [notice]
  | _ => []

def Destination.file? : Destination → Option Location
  | .file loc => some loc
  | _ => none

namespace Play

def targets (p : Play) : List Location := p.parts.filterMap fun x => x.into.file?

/-- **Where the output of some commands has ended up**, if that of their programs is given. -/
structure Delivered (writes : Nat → Launch → List Write) (cs : List Command) (old : Console)
    (p : Play) : Prop where
  /-- Each command has had its turn. -/
  commands : p.parts.map Part.command = cs
  /-- Its output goes to what its target leads to, or to the shell's own streams if it has none, or
  one that cannot be opened. -/
  sent : ∀ x ∈ p.parts, SentIn p.shell.system.tree x
  /-- If the target leads to a file, that holds the output of its command, and nothing else. -/
  files : ∀ (i : Nat) (x : Part) (path : Text) (loc : Location), p.parts[i]? = some x →
    x.command.target = some path → x.into = .file loc →
    ∃ mode, p.shell.system.tree.locate true x.directory path =
      .ok (.file loc mode (.octets (Write.dataOf (x.outputOf (writes i)))))
  /-- The streams have gained the output of the other commands, in some order, and nothing else. -/
  console : ∃ tagged : List (Nat × Write),
    p.console.out = old.out ++ Write.sentTo .out (tagged.map Prod.snd) ∧
    p.console.err = old.err ++ Write.sentTo .err (tagged.map Prod.snd) ∧
    ∀ i, (tagged.filter fun x => x.1 = i).map Prod.snd =
      match p.parts[i]? with
      | some x => if x.into = .inherited then x.outputOf (writes i) else []
      | none => []

variable {p : Play} {writes : Nat → Launch → List Write} {cs : List Command}

/-- Where the output goes into different files, no two slots go into the same one. -/
theorem disjoint_of_nodup (hslots : p.slots = p.parts.map fun x => (x.into, x.output))
    (h : p.targets.Nodup) : p.Disjoint := by
  have hpair := List.pairwise_filterMap.mp h
  rw [List.pairwise_iff_getElem] at hpair
  have hparts : ∀ (i : Nat) (loc : Location) (ws : List Write),
      p.slots[i]? = some (.file loc, ws) → ∃ hi : i < p.parts.length,
        p.parts[i].into.file? = some loc := by
    intro i loc ws hi
    rw [hslots, List.getElem?_map, Option.map_eq_some_iff] at hi
    obtain ⟨x, hx, heq⟩ := hi
    obtain ⟨hlt, rfl⟩ := List.getElem?_eq_some_iff.mp hx
    exact ⟨hlt, by rw [(Prod.mk.inj heq).1]; rfl⟩
  intro i j loc ws vs hi hj
  obtain ⟨hi, hiloc⟩ := hparts i loc ws hi
  obtain ⟨hj, hjloc⟩ := hparts j loc vs hj
  rcases Nat.lt_trichotomy i j with hlt | heq | hgt
  · exact absurd rfl (hpair i j hi hj hlt loc hiloc loc hjloc)
  · exact heq
  · exact absurd rfl (hpair j i hj hi hgt loc hjloc loc hiloc)

/-- Once a line has ended, everything has come out. -/
theorem output_eq_outputOf (h : InOrder writes cs p) (hend : p.phase = .ended .continues) {i : Nat}
    {x : Part} (hx : p.parts[i]? = some x) : x.output = x.outputOf (writes i) := by
  have hover := (h.finished hend).2 x (List.mem_of_getElem? hx)
  have hwrites := h.programs i x hx
  obtain ⟨command, directory, into, course⟩ := x
  cases course with
  | program launch made pending =>
      have hnil : pending = [] := by
        simp only [Part.isOver, Bool.and_eq_true, List.isEmpty_iff] at hover
        exact hover.1
      have := hwrites launch made pending rfl
      rw [hnil, List.append_nil] at this
      exact this
  | done => rfl
  | failed fault => rfl
  | fatal fault => rfl

/-- **Redirections never leak.** Take any commands, any writes of the programs they start, and any
order in which the shell and the programs go on until the line continues. If the targets that could
be opened are different files, then each of them holds exactly what came out of its own command:
all that its program wrote, in the order in which it was written, or the notice if the command
failed, or nothing. The streams of the shell have gained exactly what came out of the other
commands: those without a target, and those whose target could not be opened. -/
theorem delivered_of_follow {s : Shell} {console : Console} {schedule : List Turn}
    (hp : (start s console cs).follow writes schedule = some p)
    (hend : p.phase = .ended .continues) (hdis : p.targets.Nodup) :
    Delivered writes cs console p := by
  have hkept : Kept console p := by
    refine follow_preserves (fun _ _ hs => kept_of_delivers (delivers_of_step hs)) hp ?_
    exact ⟨fun _ i loc ws hi => by simp [slots, start, Phase.into?] at hi,
      [], rfl, fun i => by simp [slots, start, Phase.into?, shown]⟩
  have horder : InOrder writes cs p := inOrder_of_follow hp
  -- at the end every slot belongs to a part, and everything has come out of it
  have hslots : p.slots = p.parts.map fun x => (x.into, x.output) := by
    simp [slots, hend, Phase.into?]
  have hslot (i : Nat) :
      p.slots[i]? = p.parts[i]?.map fun x : Part => (x.into, x.outputOf (writes i)) := by
    rw [hslots, List.getElem?_map]
    cases hx : p.parts[i]? with
    | none => rfl
    | some x => simp [output_eq_outputOf horder hend hx]
  refine ⟨?_, horder.sent, ?_, ?_⟩
  · simpa [hend, Phase.command?, (horder.finished hend).1] using horder.commands
  · -- the invariant says what the file holds, and the target still leads to the file
    intro i x path loc hx htarget hinto
    have hslot : p.slots[i]? = some (.file loc, x.outputOf (writes i)) := by
      rw [hslot, hx, Option.map_some, hinto]
    obtain ⟨mode, hn⟩ := hkept.files (disjoint_of_nodup hslots hdis) i loc _ hslot
    have hsent := horder.sent x (List.mem_of_getElem? hx)
    simp only [SentIn, Sent, htarget, hinto] at hsent
    rcases hsent with hl | ⟨hinherited, -⟩
    · exact ⟨mode, hl.locate_eq hn⟩
    · cases hinherited
  · obtain ⟨tagged, htagged, hshown⟩ := hkept.console
    rw [Console.foldl_add] at htagged
    refine ⟨tagged, by rw [htagged], by rw [htagged], fun i => (hshown i).trans ?_⟩
    rw [hslot]
    cases p.parts[i]? with
    | none => rfl
    | some x =>
        simp only [Option.map_some]
        cases hinto : x.into <;> simp [shown]

/-- Two programs, one of them redirected, a redirected command that fails, and one whose target is a
directory. -/
def fourCommands : List Command :=
  [{ name := text "probe", operands := [], target := some (text "out") },
    { name := text "probe", operands := [], target := none },
    { name := text "nope", operands := [], target := some (text "lost") },
    { name := text "probe", operands := [], target := some (text "bin") }]

def bothStreams (n : Nat) (_ : Launch) : List Write :=
  [{ stream := .out, data := [n.toUInt8] }, { stream := .err, data := [n.toUInt8] }]

/-- A schedule in which the programs write, and end, while the shell goes on. -/
def alternating : List Turn :=
  [.shell, .shell, .shell, .program 0, .shell, .program 1, .shell, .program 0, .program 0, .shell,
    .shell, .program 1, .shell, .shell, .program 1, .shell]

theorem delivered_fourCommands : ∃ p,
    (start .overProbe (.ofInput []) fourCommands).follow bothStreams alternating = some p ∧
      p.phase = .ended .continues ∧ p.targets.Nodup ∧
        Delivered bothStreams fourCommands (.ofInput []) p := by
  have hphase : ((start .overProbe (.ofInput []) fourCommands).follow bothStreams alternating).map
      Play.phase = some (.ended .continues) := by decide
  have htargets : ((start .overProbe (.ofInput []) fourCommands).follow bothStreams
      alternating).map Play.targets = some [[text "out"], [text "lost"]] := by decide
  cases hp : (start .overProbe (.ofInput []) fourCommands).follow bothStreams alternating with
  | none =>
      rw [hp] at hphase
      cases hphase
  | some p =>
      rw [hp] at hphase htargets
      have hend : p.phase = .ended .continues := Option.some.inj hphase
      have hdis : p.targets.Nodup := by
        rw [show p.targets = _ from Option.some.inj htargets]
        decide
      exact ⟨p, rfl, hend, hdis, delivered_of_follow hp hend hdis⟩

end Play

end ParallelShell
