import ParallelShell.Output.Console
import ParallelShell.Proofs.Shell.Commands

set_option autoImplicit false

/-! # A line as it is played

The shell goes through the commands of a line while the programs it has started write, and end, and
nothing is said about who is faster. Nor is anything said about what the system grants: it may
refuse a process after it has granted others. Here a line is therefore taken apart into **turns**.
In a turn, the shell opens the target of the next command, or carries the command out, or writes the
notice about its fault, or ends the line; or one of the programs makes its next write, or ends; or
the system changes its supply. A `Play` is what has come of a line so far, and `Play.follow` goes on
from there along a **schedule**, which is any list of turns: whoever has the turn can be asked to
take it at any time.

What the programs write is given beforehand. `writes n launch` are the writes of the program of the
`n`th command, counted from zero, if it is started as `launch` says, in the order in which it makes
them. A program can end once it has made its last write, and from then on nobody executes its file
or has its target open.

A line continues only after all of its programs have ended. A line that exits or fails ends at once,
and then its programs may still be writing. Programs that were running before the line stay. Only
a line that ends early leaves any, and the shell runs no other line after it.
-/

namespace ParallelShell

/-- What has become of a command that was carried out, or was to be. -/
inductive Course where
  /-- A program was started. It has made some writes, and others are pending. -/
  | program (launch : Launch) (made pending : List Write)
  /-- A built-in has run. -/
  | done
  /-- It failed, and the notice has been written. -/
  | failed (fault : Fault)
  /-- It failed, and the shell cannot go on. -/
  | fatal (fault : Fault)

structure Part where
  command : Command
  /-- The current directory in which its target was opened. -/
  directory : Location
  /-- Where its output goes. -/
  into : Destination
  course : Course
  /-- Whether its program has ended. -/
  ended : Bool := false

/-- Nothing has come out yet, and if a program was started, its writes are the given ones. -/
def Course.IsFresh (writes : Launch → List Write) : Course → Prop
  | .program launch made pending => made = [] ∧ pending = writes launch
  | .failed _ => False
  | _ => True

namespace Part

def notice : Write := { stream := .err, data := Fault.notice }

def output (x : Part) : List Write :=
  match x.course with
  | .program _ made _ => made
  | .failed _ => [notice]
  | _ => []

def event? (x : Part) : Option Event :=
  match x.course with
  | .program launch _ _ => some (.started launch)
  | .failed fault => some (.reported fault x.into)
  | _ => none

/-- Whether no program of the command is running. -/
def isOver (x : Part) : Bool :=
  match x.course with
  | .program _ _ pending => pending.isEmpty && x.ended
  | _ => true

end Part

/-- What a command becomes that is run in a shell. -/
def Shell.part (s : Shell) (c : Command) (into : Destination) (course : Course) : Part :=
  { command := c, directory := s.system.directory, into, course }

@[simp]
theorem Shell.part_into (s : Shell) (c : Command) (into : Destination) (course : Course) :
    (s.part c into course).into = into := rfl

@[simp]
theorem Shell.part_course (s : Shell) (c : Command) (into : Destination) (course : Course) :
    (s.part c into course).course = course := rfl

inductive Play.Phase where
  /-- It opens the target of the next command, or ends the line. -/
  | ready
  /-- It carries out a command whose output goes to a destination. -/
  | opened (c : Command) (into : Destination)
  /-- It writes the notice about the fault of a command to a destination. -/
  | failing (c : Command) (fault : Fault) (into : Destination)
  /-- Nothing; the line has ended. -/
  | ended (status : Status)
  deriving DecidableEq, Repr

structure Play where
  shell : Shell
  console : Console
  /-- The commands that have had their turn, in order. -/
  parts : List Part
  /-- The programs that the shell has started and not waited for. -/
  children : List Launch
  phase : Play.Phase
  /-- The commands that follow. -/
  left : List Command

inductive Turn where
  | shell
  /-- The program of a command of the line, counted from zero. -/
  | program (n : Nat)
  /-- The system, which grants something else from now on. -/
  | system (supply : Supply)
  deriving DecidableEq, Repr

/-- Whether the supply stays as it is. -/
def Turn.isSteady : Turn → Bool
  | .system _ => false
  | _ => true

namespace Play

def start (s : Shell) (console : Console) (cs : List Command) : Play :=
  { shell := s, console, parts := [], children := [], phase := .ready, left := cs }

def scene (p : Play) : Scene := { tree := p.shell.system.tree, console := p.console }

def withScene (p : Play) (scene : Scene) : Play :=
  { p with
    shell := { p.shell with system := { p.shell.system with tree := scene.tree } }
    console := scene.console }

/-- The play after a program has written something, and become another part by that. -/
def withWritten (p : Play) (n : Nat) (x : Part) (scene : Scene) : Play :=
  { p.withScene scene with parts := p.parts.set n x }

def withEnded (p : Play) (n : Nat) (x : Part) (launch : Launch) : Play :=
  { p with shell := p.shell.ended launch, parts := p.parts.set n { x with ended := true } }

def withSupply (p : Play) (supply : Supply) : Play :=
  { p with shell := { p.shell with system := { p.shell.system with supply } } }

/-- One more command has had its turn. -/
def withPart (p : Play) (x : Part) : Play := { p with parts := p.parts ++ [x], phase := .ready }

/-- One more program is a child of the shell. -/
def withChild (p : Play) (s : Shell) (launch : Launch) : Play :=
  { p with shell := s, children := p.children ++ [launch] }

def open? (p : Play) : Option Play :=
  match p.left with
  | [] => if p.parts.all Part.isOver then some { p with phase := .ended .continues } else none
  | c :: left =>
    match p.shell.openTarget c.target with
    | .ok (shell, into) => some { p with shell, phase := .opened c into, left }
    | .error fault => some { p with phase := .failing c fault .inherited, left }

def carryOut (p : Play) (writes : Nat → Launch → List Write) (c : Command) (into : Destination) :
    Play :=
  match p.shell.carryOut c into with
  | .ok (shell, .started launch) =>
    let course := Course.program launch [] (writes p.parts.length launch)
    (p.withChild shell launch).withPart (p.shell.part c into course)
  | .ok (shell, .done) => { p with shell }.withPart (p.shell.part c into .done)
  | .ok (shell, .exit) =>
    { { p with shell }.withPart (p.shell.part c into .done) with phase := .ended .exits }
  | .error fault =>
    if fault.isFatal then
      { p.withPart (p.shell.part c into (.fatal fault)) with phase := .ended (.fails fault) }
    else { p with phase := .failing c fault into }

def notify (p : Play) (c : Command) (fault : Fault) (into : Destination) : Play :=
  let console := (p.scene.announce [.reported fault into]).console
  { p with shell := p.shell.notify into, console }.withPart (p.shell.part c into (.failed fault))

/-- A program makes its next write, at the offset it has reached. When it has made the last, it
ends. -/
def advance? (p : Play) (n : Nat) : Option Play :=
  match p.parts[n]? with
  | none => none
  | some x =>
    match x.course with
    | .program launch made (w :: pending) =>
      let offset := (made.flatMap Write.data).length
      let y : Part := { x with course := .program launch (made ++ [w]) pending }
      some (p.withWritten n y (p.scene.write x.into offset w))
    | .program launch _ [] => if x.ended then none else some (p.withEnded n x launch)
    | _ => none

/-- A turn, if whose turn it is has anything to do. -/
def step (writes : Nat → Launch → List Write) (p : Play) : Turn → Option Play
  | .program n => p.advance? n
  | .system supply => some (p.withSupply supply)
  | .shell =>
    match p.phase with
    | .ready => p.open?
    | .opened c into => some (p.carryOut writes c into)
    | .failing c fault into => some (p.notify c fault into)
    | .ended _ => none

def follow (writes : Nat → Launch → List Write) (p : Play) : List Turn → Option Play
  | [] => some p
  | turn :: schedule =>
    match p.step writes turn with
    | none => none
    | some p => p.follow writes schedule

def events (p : Play) : List Event := p.parts.filterMap Part.event?

def launches (p : Play) : List Launch := p.events.filterMap Event.launch?

/-- What has come of a line that has ended with a status. Unless it has ended early, its children
are waited for. -/
def result (p : Play) (status : Status) : LineRun :=
  let r : LineRun := { shell := p.shell, events := p.events, children := p.children, status }
  match status with
  | .continues => r.await
  | _ => r

end Play

namespace Play

/-! ## Turns -/

@[simp]
theorem parts_withWritten (p : Play) (n : Nat) (x : Part) (scene : Scene) :
    (p.withWritten n x scene).parts = p.parts.set n x := rfl

@[simp]
theorem parts_withEnded (p : Play) (n : Nat) (x : Part) (launch : Launch) :
    (p.withEnded n x launch).parts = p.parts.set n { x with ended := true } := rfl

@[simp]
theorem scene_withWritten (p : Play) (n : Nat) (x : Part) (scene : Scene) :
    (p.withWritten n x scene).scene = scene := rfl

@[simp]
theorem events_withPart (p : Play) (x : Part) :
    (p.withPart x).events = p.events ++ x.event?.toList := by
  cases h : x.event? <;> simp [events, withPart, h]

/-- **What a turn can do.** -/
inductive Step (writes : Nat → Launch → List Write) (p : Play) : Play → Prop
  | finish : p.phase = .ready → p.left = [] → (∀ x ∈ p.parts, x.isOver = true) →
      Step writes p { p with phase := .ended .continues }
  | unopened {c : Command} {left : List Command} {fault : Fault} :
      p.phase = .ready → p.left = c :: left → p.shell.openTarget c.target = .error fault →
      Step writes p { p with phase := .failing c fault .inherited, left }
  | opened {c : Command} {left : List Command} {shell : Shell} {into : Destination} :
      p.phase = .ready → p.left = c :: left → p.shell.openTarget c.target = .ok (shell, into) →
      Step writes p { p with shell, phase := .opened c into, left }
  | carriedOut {c : Command} {into : Destination} :
      p.phase = .opened c into → Step writes p (p.carryOut writes c into)
  | notified {c : Command} {fault : Fault} {into : Destination} :
      p.phase = .failing c fault into → Step writes p (p.notify c fault into)
  | written {n : Nat} {x : Part} {launch : Launch} {made pending : List Write} {w : Write} :
      p.parts[n]? = some x → x.course = .program launch made (w :: pending) →
      Step writes p
        (p.withWritten n { x with course := .program launch (made ++ [w]) pending }
          (p.scene.write x.into (made.flatMap Write.data).length w))
  | ends {n : Nat} {x : Part} {launch : Launch} {made : List Write} :
      p.parts[n]? = some x → x.course = .program launch made [] → x.ended = false →
      Step writes p (p.withEnded n x launch)
  | supplied (supply : Supply) : Step writes p (p.withSupply supply)

/-- **What the shell can do in its turn.** -/
inductive Acted (writes : Nat → Launch → List Write) (p : Play) : Play → Prop
  | finish : p.phase = .ready → p.left = [] → (∀ x ∈ p.parts, x.isOver = true) →
      Acted writes p { p with phase := .ended .continues }
  | unopened {c : Command} {left : List Command} {fault : Fault} :
      p.phase = .ready → p.left = c :: left → p.shell.openTarget c.target = .error fault →
      Acted writes p { p with phase := .failing c fault .inherited, left }
  | opened {c : Command} {left : List Command} {shell : Shell} {into : Destination} :
      p.phase = .ready → p.left = c :: left → p.shell.openTarget c.target = .ok (shell, into) →
      Acted writes p { p with shell, phase := .opened c into, left }
  | carriedOut {c : Command} {into : Destination} :
      p.phase = .opened c into → Acted writes p (p.carryOut writes c into)
  | notified {c : Command} {fault : Fault} {into : Destination} :
      p.phase = .failing c fault into → Acted writes p (p.notify c fault into)

theorem acted_of_step {writes : Nat → Launch → List Write} {p q : Play}
    (h : p.step writes .shell = some q) : Acted writes p q := by
  simp only [step] at h
  split at h
  · rename_i hp
    unfold open? at h
    split at h
    · rename_i hl
      split at h
      · rename_i ho
        exact Option.some.inj h ▸ .finish hp hl (List.all_eq_true.mp ho)
      · cases h
    · rename_i hl
      split at h
      · rename_i ho
        exact Option.some.inj h ▸ .opened hp hl ho
      · rename_i ho
        exact Option.some.inj h ▸ .unopened hp hl ho
  · rename_i hp
    exact Option.some.inj h ▸ .carriedOut hp
  · rename_i hp
    exact Option.some.inj h ▸ .notified hp
  · cases h

theorem step_of_acted {writes : Nat → Launch → List Write} {p q : Play} (h : Acted writes p q) :
    p.step writes .shell = some q := by
  cases h with
  | finish hp hl ho => simp only [step, hp, open?, hl, List.all_eq_true.mpr ho, if_true]
  | unopened hp hl ho => simp only [step, hp, open?, hl, ho]
  | opened hp hl ho => simp only [step, hp, open?, hl, ho]
  | carriedOut hp => simp only [step, hp]
  | notified hp => simp only [step, hp]

/-- **What the program of a command can do in its turn.** -/
inductive Advances (p : Play) (n : Nat) : Play → Prop
  | written {x : Part} {launch : Launch} {made pending : List Write} {w : Write} :
      p.parts[n]? = some x → x.course = .program launch made (w :: pending) →
      Advances p n
        (p.withWritten n { x with course := .program launch (made ++ [w]) pending }
          (p.scene.write x.into (made.flatMap Write.data).length w))
  | ends {x : Part} {launch : Launch} {made : List Write} :
      p.parts[n]? = some x → x.course = .program launch made [] → x.ended = false →
      Advances p n (p.withEnded n x launch)

theorem step_program_iff {writes : Nat → Launch → List Write} {p q : Play} {n : Nat} :
    p.step writes (.program n) = some q ↔ Advances p n q := by
  constructor
  · intro h
    simp only [step, advance?] at h
    split at h
    · cases h
    · rename_i x hn
      split at h
      · rename_i hcourse
        exact Option.some.inj h ▸ .written hn hcourse
      · rename_i hcourse
        split at h
        · cases h
        · rename_i hended
          exact Option.some.inj h ▸ .ends hn hcourse (by simpa using hended)
      · cases h
  · intro h
    cases h with
    | written hn hcourse => simp only [step, advance?, hn, hcourse]
    | ends hn hcourse hended =>
        simp only [step, advance?, hn, hcourse, hended, Bool.false_eq_true, if_false]

theorem step_inv {writes : Nat → Launch → List Write} {p q : Play} {turn : Turn}
    (h : p.step writes turn = some q) : Step writes p q := by
  cases turn with
  | program n =>
      cases step_program_iff.mp h with
      | written hn hcourse => exact .written hn hcourse
      | ends hn hcourse hended => exact .ends hn hcourse hended
  | system supply => exact Option.some.inj h ▸ .supplied supply
  | shell =>
      cases acted_of_step h with
      | finish hp hl ho => exact .finish hp hl ho
      | unopened hp hl ho => exact .unopened hp hl ho
      | opened hp hl ho => exact .opened hp hl ho
      | carriedOut hp => exact .carriedOut hp
      | notified hp => exact .notified hp

/-- **What every turn preserves** is preserved along every schedule. -/
theorem follow_preserves {writes : Nat → Launch → List Write} {P : Play → Prop}
    (hstep : ∀ p q, Step writes p q → P p → P q) {schedule : List Turn} {p q : Play}
    (h : p.follow writes schedule = some q) (hp : P p) : P q := by
  induction schedule generalizing p with
  | nil => exact Option.some.inj h ▸ hp
  | cons turn schedule ih =>
      simp only [follow] at h
      split at h
      · cases h
      · rename_i r hr
        exact ih h (hstep p r (step_inv hr) hp)

theorem map_set_of_getElem? {α β : Type} (f : α → β) {l : List α} {n : Nat} {x y : α}
    (hn : l[n]? = some x) (hy : f y = f x) : (l.set n y).map f = l.map f := by
  obtain ⟨hlt, rfl⟩ := List.getElem?_eq_some_iff.mp hn
  rw [List.map_set, hy, ← List.getElem_map f (h := by simpa using hlt)]
  exact List.set_getElem_self _

theorem filterMap_set_of_getElem? {α β : Type} (f : α → Option β) {l : List α} {n : Nat} {x y : α}
    (hn : l[n]? = some x) (hy : f y = f x) : (l.set n y).filterMap f = l.filterMap f := by
  have hmap := map_set_of_getElem? f hn hy
  simpa only [List.filterMap_map, Function.id_comp] using congrArg (List.filterMap id) hmap

/-- However much a program has written, the same is told of it. -/
theorem event?_eq_of_program {x : Part} {launch : Launch} {made pending : List Write}
    (h : x.course = .program launch made pending) (made' pending' : List Write) :
    ({ x with course := .program launch made' pending' } : Part).event? = x.event? := by
  rw [Part.event?, Part.event?, h]

theorem event?_ended (x : Part) : ({ x with ended := true } : Part).event? = x.event? := rfl

/-- Only a command that has failed is reported. -/
theorem course_of_reported {x : Part} {fault : Fault} {into : Destination}
    (h : x.event? = some (.reported fault into)) : x.course = .failed fault := by
  unfold Part.event? at h
  split at h <;> simp_all

/-- A row of a table to which one is added is one of the others, or the one that is added. -/
theorem getElem?_append_singleton {α : Type} {l : List α} {x y : α} {i : Nat}
    (h : (l ++ [x])[i]? = some y) : l[i]? = some y ∨ (i = l.length ∧ x = y) := by
  rcases Nat.lt_or_ge i l.length with hlt | hge
  · rw [List.getElem?_append_left hlt] at h
    exact Or.inl h
  · have hle : i < (l ++ [x]).length := (List.getElem?_eq_some_iff.mp h).1
    rw [List.length_append, List.length_singleton] at hle
    have hi : i = l.length := by omega
    subst hi
    exact Or.inr ⟨rfl, by simpa using h⟩

/-- What holds of all rows of a table, and of the one that replaces one of them. -/
theorem forall_mem_set {α : Type} {P : α → Prop} {l : List α} {y : α} (h : ∀ x ∈ l, P x) (hy : P y)
    (n : Nat) : ∀ x ∈ l.set n y, P x := by
  intro x hx
  rcases List.mem_or_eq_of_mem_set hx with hx | rfl
  · exact h x hx
  · exact hy

theorem carryOut_of_started {writes : Nat → Launch → List Write} {p : Play} {c : Command}
    {into : Destination} {s : Shell} {launch : Launch}
    (h : p.shell.carryOut c into = .ok (s, .started launch)) :
    p.carryOut writes c into = (p.withChild s launch).withPart
      (p.shell.part c into (.program launch [] (writes p.parts.length launch))) := by
  simp only [carryOut, h]

theorem carryOut_of_done {writes : Nat → Launch → List Write} {p : Play} {c : Command}
    {into : Destination} {s : Shell} (h : p.shell.carryOut c into = .ok (s, .done)) :
    p.carryOut writes c into =
      ({ p with shell := s } : Play).withPart (p.shell.part c into .done) := by
  simp only [carryOut, h]

theorem carryOut_of_exit {writes : Nat → Launch → List Write} {p : Play} {c : Command}
    {into : Destination} {s : Shell} (h : p.shell.carryOut c into = .ok (s, .exit)) :
    p.carryOut writes c into =
      { ({ p with shell := s } : Play).withPart (p.shell.part c into .done) with
        phase := .ended .exits } := by
  simp only [carryOut, h]

theorem carryOut_of_fatal {writes : Nat → Launch → List Write} {p : Play} {c : Command}
    {into : Destination} {fault : Fault} (h : p.shell.carryOut c into = .error fault)
    (hf : fault.isFatal = true) :
    p.carryOut writes c into =
      { p.withPart (p.shell.part c into (.fatal fault)) with phase := .ended (.fails fault) } := by
  simp only [carryOut, h, hf, if_true]

theorem carryOut_of_failed {writes : Nat → Launch → List Write} {p : Play} {c : Command}
    {into : Destination} {fault : Fault} (h : p.shell.carryOut c into = .error fault)
    (hf : fault.isFatal = false) :
    p.carryOut writes c into = { p with phase := .failing c fault into } := by
  simp only [carryOut, h, hf, if_false, Bool.false_eq_true]

/-- **What carrying out a command comes to**, and what has happened in the shell. -/
inductive ComesTo (writes : Nat → Launch → List Write) (p : Play) (c : Command)
    (into : Destination) : Play → Prop
  | started {s : Shell} {launch : Launch} :
      p.shell.carryOut c into = .ok (s, .started launch) →
      ComesTo writes p c into ((p.withChild s launch).withPart
        (p.shell.part c into (.program launch [] (writes p.parts.length launch))))
  | done {s : Shell} : p.shell.carryOut c into = .ok (s, .done) →
      ComesTo writes p c into
        (({ p with shell := s } : Play).withPart (p.shell.part c into .done))
  | exit {s : Shell} : p.shell.carryOut c into = .ok (s, .exit) →
      ComesTo writes p c into
        { ({ p with shell := s } : Play).withPart (p.shell.part c into .done) with
          phase := .ended .exits }
  | fatal {fault : Fault} : p.shell.carryOut c into = .error fault → fault.isFatal = true →
      ComesTo writes p c into
        { p.withPart (p.shell.part c into (.fatal fault)) with phase := .ended (.fails fault) }
  | failed {fault : Fault} : p.shell.carryOut c into = .error fault → fault.isFatal = false →
      ComesTo writes p c into { p with phase := .failing c fault into }

theorem comesTo_carryOut (writes : Nat → Launch → List Write) (p : Play) (c : Command)
    (into : Destination) : ComesTo writes p c into (p.carryOut writes c into) := by
  cases hc : p.shell.carryOut c into with
  | ok x =>
      obtain ⟨s, action⟩ := x
      cases action with
      | started launch => exact carryOut_of_started hc ▸ .started hc
      | done => exact carryOut_of_done hc ▸ .done hc
      | exit => exact carryOut_of_exit hc ▸ .exit hc
  | error fault =>
      cases hf : fault.isFatal with
      | true => exact carryOut_of_fatal hc hf ▸ .fatal hc hf
      | false => exact carryOut_of_failed hc hf ▸ .failed hc hf

/-- **What carrying out a command can do**, if nobody asks why: it becomes a part of which nothing
has come out yet, or it fails, and that is all. -/
inductive CarriedOut (writes : Nat → Launch → List Write) (p : Play) (c : Command)
    (into : Destination) : Play → Prop
  | part {shell : Shell} {course : Course} {children : List Launch} {phase : Phase} :
      shell.system.tree = p.shell.system.tree → course.IsFresh (writes p.parts.length) →
      (phase = .ready ∨ ∃ status, phase = .ended status ∧ status ≠ .continues) →
      CarriedOut writes p c into
        { p with shell, parts := p.parts ++ [p.shell.part c into course], children, phase }
  | failing {fault : Fault} :
      CarriedOut writes p c into { p with phase := .failing c fault into }

theorem carriedOut (writes : Nat → Launch → List Write) (p : Play) (c : Command)
    (into : Destination) : CarriedOut writes p c into (p.carryOut writes c into) := by
  have hcomes := comesTo_carryOut writes p c into
  generalize p.carryOut writes c into = q at hcomes ⊢
  cases hcomes with
  | started hc => exact .part (Shell.tree_of_carryOut hc) ⟨rfl, rfl⟩ (Or.inl rfl)
  | done hc => exact .part (Shell.tree_of_carryOut hc) trivial (Or.inl rfl)
  | exit hc => exact .part (Shell.tree_of_carryOut hc) trivial (Or.inr ⟨.exits, rfl, by simp⟩)
  | @fatal fault _ _ => exact .part rfl trivial (Or.inr ⟨.fails fault, rfl, by simp⟩)
  | failed _ _ => exact .failing

/-- A notice is a write at the beginning of where it goes. -/
theorem notify_eq (p : Play) (c : Command) (fault : Fault) (into : Destination) :
    p.notify c fault into =
      (p.withScene (p.scene.write into 0 Part.notice)).withPart
        (p.shell.part c into (.failed fault)) := by
  cases into <;> rfl

theorem supply_of_carryOut (writes : Nat → Launch → List Write) (p : Play) (c : Command)
    (into : Destination) :
    (p.carryOut writes c into).shell.system.supply = p.shell.system.supply := by
  have hcomes := comesTo_carryOut writes p c into
  generalize p.carryOut writes c into = q at hcomes ⊢
  cases hcomes with
  | started hc => exact (Shell.sameGround_of_carryOut hc).supply
  | done hc => exact (Shell.sameGround_of_carryOut hc).supply
  | exit hc => exact (Shell.sameGround_of_carryOut hc).supply
  | fatal _ _ => rfl
  | failed _ _ => rfl

/-- In a steady turn the supply stays as it is. -/
theorem supply_of_step {writes : Nat → Launch → List Write} {p q : Play} {turn : Turn}
    (hsteady : turn.isSteady = true) (h : p.step writes turn = some q) :
    q.shell.system.supply = p.shell.system.supply := by
  cases turn with
  | system supply => cases hsteady
  | program n =>
      cases step_program_iff.mp h with
      | written _ _ => rfl
      | ends _ _ _ => rfl
  | shell =>
      cases acted_of_step h with
      | finish _ _ _ => rfl
      | unopened _ _ _ => rfl
      | opened _ _ ho => exact (Shell.sameGround_of_openTarget ho).supply
      | carriedOut _ => exact supply_of_carryOut writes p _ _
      | @notified c fault into _ => cases into <;> rfl

/-- **What every steady turn preserves** is preserved along every schedule of such turns. -/
theorem follow_preserves_of_isSteady {writes : Nat → Launch → List Write} {P : Play → Prop}
    (hstep : ∀ p q, Step writes p q → q.shell.system.supply = p.shell.system.supply → P p → P q)
    {schedule : List Turn} (hsteady : ∀ turn ∈ schedule, turn.isSteady = true) {p q : Play}
    (h : p.follow writes schedule = some q) (hp : P p) : P q := by
  induction schedule generalizing p with
  | nil => exact Option.some.inj h ▸ hp
  | cons turn schedule ih =>
      obtain ⟨hturn, hrest⟩ := List.forall_mem_cons.mp hsteady
      simp only [follow] at h
      split at h
      · cases h
      · rename_i r hr
        exact ih hrest h (hstep p r (step_inv hr) (supply_of_step hturn hr) hp)

/-! ## Results -/

@[simp]
theorem status_result (p : Play) (status : Status) : (p.result status).status = status := by
  cases status <;> simp [result]

@[simp]
theorem shell_result (p : Play) (status : Status) : (p.result status).shell = p.shell := by
  cases status <;> simp [result]

@[simp]
theorem faults_result (p : Play) (status : Status) :
    (p.result status).faults = p.events.filterMap Event.fault? := by
  cases status with
  | continues => exact LineRun.faults_await _
  | exits => rfl
  | fails fault => rfl

@[simp]
theorem launches_result (p : Play) (status : Status) : (p.result status).launches = p.launches := by
  cases status with
  | continues => exact LineRun.launches_await _
  | exits => rfl
  | fails fault => rfl

end Play

namespace Shell

/-- What can come of a line along a schedule, whatever its programs write. -/
def PlaysAlong (s : Shell) (line : Text) (schedule : List Turn) (r : LineRun) : Prop :=
  match Line.commands line with
  | .error _ => r = s.runLine line
  | .ok cs =>
    ∃ console writes p status, (Play.start s console cs).follow writes schedule = some p ∧
      p.phase = .ended status ∧ r = p.result status

/-- **What can come of a line**, whatever its programs write, whoever is faster, and whatever the
system grants. -/
def Plays (s : Shell) (line : Text) (r : LineRun) : Prop :=
  ∃ schedule, s.PlaysAlong line schedule r

/-- **What can come of a line** while the supply stays as it is. -/
def PlaysSteadily (s : Shell) (line : Text) (r : LineRun) : Prop :=
  ∃ schedule, (∀ turn ∈ schedule, turn.isSteady = true) ∧ s.PlaysAlong line schedule r

theorem PlaysSteadily.plays {s : Shell} {line : Text} {r : LineRun} (h : s.PlaysSteadily line r) :
    s.Plays line r := by
  obtain ⟨schedule, -, hr⟩ := h
  exact ⟨schedule, hr⟩

end Shell

def Shell.overProbe : Shell where
  system :=
    { tree :=
        (FileTree.empty.put [text "bin"] .directory).put [text "probe", text "bin"]
          (.file 0o755 .program)
      directory := []
      running := []
      supply := .available
      programPath := [] }
  searchPath := .standard

def Play.oneWrite (_ : Nat) (_ : Launch) : List Write := [{ stream := .out, data := [1] }]

end ParallelShell
