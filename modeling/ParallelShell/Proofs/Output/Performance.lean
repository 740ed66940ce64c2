import Mathlib.Data.List.Nodup
import ParallelShell.Proofs.Shell.Content
import ParallelShell.Proofs.Shell.Play
import ParallelShell.Session

set_option autoImplicit false

/-! # A session is one of the plays

`Session.runLine` runs a line to its end and lets the programs do what they do afterwards, one after
the other. That is one of the orders in which the line can be played: the shell takes all of its
turns first (`reaches_runCommands`), then each program in turn makes all of its writes
(`leads_perform`), and unless the line has ended early, they all end (`leads_endAll`) and then it
does. The system grants the same all the while. So whatever holds of every play of a line holds of
what a session makes of it (`follow_runLine`), and something can always come of a line
(`Shell.plays_runLine`).

Only programs that copy their standard input are left out, since their writes are not given before
the line begins.
-/

namespace ParallelShell

/-- The notices about faults that go to the shell's own stream, as writes. -/
def Event.notice? : Event → Option Write
  | .reported _ .inherited => some Part.notice
  | _ => none

theorem Scene.announce_eq (s : Scene) (events : List Event) :
    s.announce events =
      { s with console := (events.filterMap Event.notice?).foldl Console.add s.console } := by
  induction events generalizing s with
  | nil => rfl
  | cons e events ih =>
      have hcons : s.announce (e :: events) = (s.announce [e]).announce events := rfl
      rw [hcons, ih]
      cases e with
      | reported fault into => cases into <;> rfl
      | started launch => rfl
      | waited n => rfl

namespace Play

variable {writes : Nat → Launch → List Write} {p q r : Play}

/-! ## Plays that lead to others -/

/-- Whether some schedule of steady turns leads from one play to another. -/
def Leads (writes : Nat → Launch → List Write) (p q : Play) : Prop :=
  ∃ schedule, (∀ turn ∈ schedule, turn.isSteady = true) ∧ p.follow writes schedule = some q

theorem Leads.refl (p : Play) : Leads writes p p := ⟨[], by simp, rfl⟩

theorem Leads.head {turn : Turn} (hturn : turn.isSteady = true) (h : p.step writes turn = some q)
    (hq : Leads writes q r) : Leads writes p r := by
  obtain ⟨schedule, hsteady, hschedule⟩ := hq
  exact ⟨turn :: schedule, List.forall_mem_cons.mpr ⟨hturn, hsteady⟩, by
    simp only [follow, h, hschedule]⟩

theorem Leads.acted (h : Acted writes p q) (hq : Leads writes q r) : Leads writes p r :=
  .head rfl (step_of_acted h) hq

theorem Leads.advances {n : Nat} (h : Advances p n q) (hq : Leads writes q r) :
    Leads writes p r :=
  .head rfl (step_program_iff.mpr h) hq

theorem Leads.trans (hp : Leads writes p q) (hq : Leads writes q r) : Leads writes p r := by
  obtain ⟨schedule, hsteady, hschedule⟩ := hp
  induction schedule generalizing p with
  | nil => exact Option.some.inj hschedule ▸ hq
  | cons turn schedule ih =>
      obtain ⟨hturn, hrest⟩ := List.forall_mem_cons.mp hsteady
      simp only [follow] at hschedule
      split at hschedule
      · cases hschedule
      · rename_i p' hp'
        exact .head hturn hp' (ih hrest hschedule)

/-! ## The turns of the shell -/

def Untouched (writes : Nat → Launch → List Write) (p : Play) : Prop :=
  ∀ (i : Nat) (x : Part), p.parts[i]? = some x → ∀ launch made pending,
    x.course = .program launch made pending →
      made = [] ∧ pending = writes i launch ∧ x.into = launch.destination ∧ x.ended = false

/-- From one play the shell gets to another by its own turns, and what comes of that is `run`. -/
structure Reaches (writes : Nat → Launch → List Write) (p q : Play) (run : LineRun) : Prop where
  leads : Leads writes p q
  shell : q.shell = run.shell
  events : q.events = p.events ++ run.events
  children : q.children = p.children ++ run.children
  console : q.console = (run.events.filterMap Event.notice?).foldl Console.add p.console
  untouched : p.Untouched writes → q.Untouched writes
  phase : match run.status with
    | .continues => q.phase = .ready ∧ q.left = []
    | status => q.phase = .ended status

/-- What comes of a command, and then of those after it. -/
theorem Reaches.after {es : List Event} {run : LineRun} (hlead : Leads writes p q)
    (hevents : q.events = p.events ++ es)
    (hchildren : q.children = p.children ++ es.filterMap Event.launch?)
    (hconsole : q.console = (es.filterMap Event.notice?).foldl Console.add p.console)
    (huntouched : p.Untouched writes → q.Untouched writes) (h : Reaches writes q r run) :
    Reaches writes p r (run.after es) where
  leads := hlead.trans h.leads
  shell := h.shell
  events := by rw [h.events, hevents, LineRun.after_events, List.append_assoc]
  children := by rw [h.children, hchildren, LineRun.after_children, List.append_assoc]
  console := by
    rw [h.console, hconsole, LineRun.after_events, List.filterMap_append, List.foldl_append]
  untouched := h.untouched ∘ huntouched
  phase := h.phase

theorem Untouched.withPart (h : p.Untouched writes) {x : Part} (hparts : q.parts = p.parts ++ [x])
    (hx : ∀ launch made pending, x.course = .program launch made pending → made = [] ∧
      pending = writes p.parts.length launch ∧ x.into = launch.destination ∧ x.ended = false) :
    q.Untouched writes := by
  intro i y hy
  rw [hparts] at hy
  rcases getElem?_append_singleton hy with hy | ⟨rfl, rfl⟩
  · exact h i y hy
  · exact hx

/-- From one play the shell gets to another by the turns in which it runs a command. -/
structure Runs (writes : Nat → Launch → List Write) (p q : Play) (c : Command) : Prop where
  leads : Leads writes p q
  shell : q.shell = (p.shell.runCommand c).1
  left : q.left = p.left.tail
  events : q.events = p.events ++ (p.shell.runCommand c).2.event?.toList
  children : q.children =
    p.children ++ (p.shell.runCommand c).2.event?.toList.filterMap Event.launch?
  console : q.console =
    ((p.shell.runCommand c).2.event?.toList.filterMap Event.notice?).foldl Console.add p.console
  untouched : p.Untouched writes → q.Untouched writes
  phase : q.phase =
    match (p.shell.runCommand c).2.stop? with
    | some status => .ended status
    | none => .ready

/-- A program that is started has its output where the command has it. -/
theorem destination_of_carryOut {s s' : Shell} {c : Command} {into : Destination} {launch : Launch}
    (h : s.carryOut c into = .ok (s', .started launch)) : launch.destination = into := by
  rcases Shell.carryOut_eq_ok h with ⟨path, l, -, hstart, -, ha⟩ | ⟨-, -, -, ha⟩ |
    ⟨_, _, -, -, -, -, ha⟩ | ⟨-, -, ha⟩
  · rw [Action.started.inj ha]
    exact (System.start_eq_ok hstart).2
  all_goals cases ha

variable {c : Command} {cs : List Command}

/-- A command becomes the part that is added, and tells the event of that part. -/
theorem Runs.of_part {x : Part} {s : Shell} {outcome : Outcome} (hlead : Leads writes p q)
    (hrun : p.shell.runCommand c = (s, outcome)) (hparts : q.parts = p.parts ++ [x])
    (hevent : x.event? = outcome.event?)
    (hx : ∀ launch made pending, x.course = .program launch made pending → made = [] ∧
      pending = writes p.parts.length launch ∧ x.into = launch.destination ∧ x.ended = false)
    (hshell : q.shell = s) (hleft : q.left = p.left.tail)
    (hchildren : q.children = p.children ++ outcome.event?.toList.filterMap Event.launch?)
    (hconsole : q.console =
      (outcome.event?.toList.filterMap Event.notice?).foldl Console.add p.console)
    (hphase : q.phase =
      match outcome.stop? with
      | some status => .ended status
      | none => .ready) : Runs writes p q c where
  leads := hlead
  shell := by rw [hrun, hshell]
  left := hleft
  events := by
    have hadded : q.events = (p.withPart x).events := by rw [Play.events, hparts]; rfl
    rw [hadded, events_withPart, hevent, hrun]
  children := by rw [hrun, hchildren]
  console := by rw [hrun, hconsole]
  untouched := fun hu => hu.withPart hparts hx
  phase := by rw [hrun, hphase]

theorem runs_of_unopened {fault : Fault} (hp : p.phase = .ready) (hl : p.left = c :: cs)
    (ho : p.shell.openTarget c.target = .error fault) : ∃ q, Runs writes p q c := by
  let p₁ : Play := { p with phase := .failing c fault .inherited, left := cs }
  have hlead : Leads writes p (p₁.notify c fault .inherited) :=
    .acted (.unopened hp hl ho) (.acted (.notified rfl) (.refl _))
  have hleft : cs = p.left.tail := by rw [hl, List.tail_cons]
  exact ⟨_, .of_part hlead (Shell.runCommand_of_unopened ho) rfl rfl (by simp) rfl hleft
    (List.append_nil _).symm rfl rfl⟩

theorem runs_of_opened {s : Shell} {into : Destination} (hp : p.phase = .ready)
    (hl : p.left = c :: cs) (ho : p.shell.openTarget c.target = .ok (s, into)) :
    ∃ q, Runs writes p q c := by
  let p₁ : Play := { p with shell := s, phase := .opened c into, left := cs }
  have hlead : Leads writes p (p₁.carryOut writes c into) :=
    .acted (.opened hp hl ho) (.acted (.carriedOut rfl) (.refl _))
  have hleft : cs = p.left.tail := by rw [hl, List.tail_cons]
  have hnone : p.children = p.children ++ [] := (List.append_nil _).symm
  cases hc : s.carryOut c into with
  | error fault =>
      by_cases hf : fault.isFatal = true
      · -- a fatal fault ends the line, and nothing is written about it
        have hrun := Shell.runCommand_of_fatal ho hc hf
        rw [carryOut_of_fatal hc hf] at hlead
        exact ⟨_, .of_part hlead hrun rfl rfl (by simp) rfl hleft hnone rfl rfl⟩
      · -- any other fault takes one more turn, in which the notice is written
        have hf : fault.isFatal = false := by simpa using hf
        have hrun := Shell.runCommand_of_failed ho hc hf
        rw [carryOut_of_failed hc hf] at hlead
        let p₂ : Play := { p₁ with phase := .failing c fault into }
        have hnotified : Leads writes p (p₂.notify c fault into) :=
          hlead.trans (.acted (.notified rfl) (.refl _))
        have hconsole : (p₂.notify c fault into).console =
            ([Event.reported fault into].filterMap Event.notice?).foldl Console.add p.console := by
          cases into <;> rfl
        exact ⟨_, .of_part hnotified hrun rfl rfl (by simp) rfl hleft hnone hconsole rfl⟩
  | ok done =>
      obtain ⟨s', action⟩ := done
      have hrun := Shell.runCommand_of_completed ho hc
      cases action with
      | started launch =>
          rw [carryOut_of_started hc] at hlead
          refine ⟨_, .of_part hlead hrun rfl rfl ?_ rfl hleft rfl rfl rfl⟩
          intro l made pending hcourse
          injection hcourse with hl hmade hpending
          refine ⟨hmade.symm, by rw [← hpending, ← hl], ?_, rfl⟩
          rw [← hl, destination_of_carryOut hc]
          rfl
      | done =>
          rw [carryOut_of_done hc] at hlead
          exact ⟨_, .of_part hlead hrun rfl rfl (by simp) rfl hleft hnone rfl rfl⟩
      | exit =>
          rw [carryOut_of_exit hc] at hlead
          exact ⟨_, .of_part hlead hrun rfl rfl (by simp) rfl hleft hnone rfl rfl⟩

/-- **The shell takes all of its turns**, and what comes of that is what comes of its commands in a
row. -/
theorem reaches_runCommands (cs : List Command) (hp : p.phase = .ready) (hl : p.left = cs) :
    ∃ q, Reaches writes p q (p.shell.runCommands cs) := by
  induction cs generalizing p with
  | nil => exact ⟨p, .refl p, rfl, by simp, by simp, by simp, id, hp, hl⟩
  | cons c cs ih =>
      have hruns : ∃ q, Runs writes p q c := by
        cases ho : p.shell.openTarget c.target with
        | error fault => exact runs_of_unopened hp hl ho
        | ok opened => exact runs_of_opened hp hl ho
      obtain ⟨q, hq⟩ := hruns
      -- either the command has ended the line, and `q` is where it ends, or `q` is ready for `cs`
      have hphase := hq.phase
      rw [Shell.runCommands_cons]
      cases hstop : (p.shell.runCommand c).2.stop? with
      | some status =>
          have hnone := Outcome.event?_of_stop? hstop
          have hevents := hq.events
          have hchildren := hq.children
          have hconsole := hq.console
          simp only [hnone, Option.toList_none, List.append_nil] at hevents
          simp only [hnone, Option.toList_none, List.filterMap_nil, List.append_nil] at hchildren
          simp only [hnone, Option.toList_none, List.filterMap_nil, List.foldl_nil] at hconsole
          have hne := Outcome.ne_continues_of_stop? hstop
          simp only [hstop] at hphase ⊢
          refine ⟨q, hq.leads, hq.shell, by simpa using hevents, by simpa using hchildren, hconsole,
            hq.untouched, ?_⟩
          cases status with
          | continues => exact absurd rfl hne
          | exits => exact hphase
          | fails fault => exact hphase
      | none =>
          simp only [hstop] at hphase ⊢
          have hleft : q.left = cs := by rw [hq.left, hl, List.tail_cons]
          obtain ⟨r, hr⟩ := ih hphase hleft
          rw [hq.shell] at hr
          exact ⟨r, hr.after hq.leads hq.events hq.children hq.console hq.untouched⟩

/-! ## The turns of the programs -/

@[simp]
theorem withWritten_withWritten (p : Play) (n : Nat) (x y : Part) (scene scene' : Scene) :
    (p.withWritten n x scene).withWritten n y scene' = p.withWritten n y scene' := by
  simp [withWritten, withScene]

/-- **A program makes all of its writes**, one after the other. -/
theorem leads_writeAll {n : Nat} {x : Part} {launch : Launch} {made ws : List Write}
    (hn : p.parts[n]? = some x) (hcourse : x.course = .program launch made ws) :
    Leads writes p
      (p.withWritten n { x with course := .program launch (made ++ ws) [] }
        (p.scene.writeAll x.into (made.flatMap Write.data).length ws)) := by
  induction ws generalizing p x made with
  | nil =>
      obtain ⟨hlt, hx⟩ := List.getElem?_eq_some_iff.mp hn
      rw [List.append_nil, ← hcourse, ← hx, withWritten, List.set_getElem_self hlt]
      exact .refl p
  | cons w ws ih =>
      have hlt := (List.getElem?_eq_some_iff.mp hn).1
      let y : Part := { x with course := .program launch (made ++ [w]) ws }
      let p₁ := p.withWritten n y (p.scene.write x.into (made.flatMap Write.data).length w)
      have hfirst : Advances p n p₁ := .written hn hcourse
      have hn₁ : p₁.parts[n]? = some y := List.getElem?_set_self hlt
      have hnext := ih hn₁ rfl
      refine .advances hfirst ?_
      simpa [p₁, y, Scene.writeAll] using hnext

/-- A program that has made some writes, has others to make, and has not ended. -/
def Stands (p : Play) (n : Nat) (launch : Launch) (made pending : List Write) : Prop :=
  ∃ x, p.parts[n]? = some x ∧ x.course = .program launch made pending ∧
    x.into = launch.destination ∧ x.ended = false

/-- Some programs have made all of their writes, and nothing else has happened. -/
structure Performed (act : Launch → List Write) (order : List (Nat × Launch)) (p q : Play) :
    Prop where
  shell : q.shell = (p.withScene q.scene).shell
  events : q.events = p.events
  children : q.children = p.children
  phase : q.phase = p.phase
  left : q.left = p.left
  written : ∀ y ∈ order, q.Stands y.1 y.2 (act y.2) []
  others : ∀ i, i ∉ order.map Prod.fst → q.parts[i]? = p.parts[i]?

/-- **Programs make their writes**, program after program in some order. -/
theorem leads_perform (order : List (Nat × Launch)) (hnodup : (order.map Prod.fst).Nodup)
    (act : Launch → List Write) (horder : ∀ y ∈ order, p.Stands y.1 y.2 [] (act y.2)) :
    ∃ q, Leads writes p q ∧ Performed act order p q ∧
      q.scene = order.foldl (fun s x => s.writeAll x.2.destination 0 (act x.2)) p.scene := by
  induction order generalizing p with
  | nil => exact ⟨p, .refl p, ⟨rfl, rfl, rfl, rfl, rfl, by simp, fun _ _ => rfl⟩, rfl⟩
  | cons head order ih =>
      obtain ⟨n, launch⟩ := head
      rw [List.map_cons, List.nodup_cons] at hnodup
      have hfirst : n ∉ order.map Prod.fst := hnodup.1
      obtain ⟨x, hn, hcourse, hinto, hended⟩ := horder (n, launch) (by simp)
      have hlt := (List.getElem?_eq_some_iff.mp hn).1
      -- the first program makes all of its writes; the parts of the others are as before
      have hlead : Leads writes p (p.withWritten n _ _) := leads_writeAll hn hcourse
      rw [hinto] at hlead
      let course := Course.program launch ([] ++ act launch) []
      let y : Part := { x with into := launch.destination, course }
      let p₁ := p.withWritten n y (p.scene.writeAll launch.destination 0 (act launch))
      have hothers : ∀ i, i ≠ n → p₁.parts[i]? = p.parts[i]? := by
        intro i hi
        rw [parts_withWritten, List.getElem?_set_ne (Ne.symm hi)]
      have hrest : ∀ z ∈ order, p₁.Stands z.1 z.2 [] (act z.2) := by
        intro z hz
        have hne : z.1 ≠ n := fun h => hfirst (h ▸ List.mem_map_of_mem hz)
        rw [Stands, hothers z.1 hne]
        exact horder z (List.mem_cons_of_mem _ hz)
      obtain ⟨q, hq, hperf, hscene⟩ := ih hnodup.2 hrest
      refine ⟨q, hlead.trans hq, ⟨hperf.shell, ?_, hperf.children, hperf.phase, hperf.left, ?_, ?_⟩,
        hscene⟩
      · refine hperf.events.trans (filterMap_set_of_getElem? Part.event? hn ?_)
        simp only [Part.event?, hcourse, y, course]
      · refine List.forall_mem_cons.mpr ⟨?_, hperf.written⟩
        have hparts : q.parts[n]? = some y :=
          (hperf.others n hfirst).trans (List.getElem?_set_self hlt)
        exact ⟨y, hparts, rfl, rfl, hended⟩
      · intro i hi
        rw [List.map_cons, List.mem_cons, not_or] at hi
        exact (hperf.others i hi.2).trans (hothers i hi.1)

/-- Some programs have ended, and nothing else has happened. -/
structure EndedAll (order : List (Nat × Launch)) (p q : Play) : Prop where
  shell : q.shell = (order.map Prod.snd).foldl Shell.ended p.shell
  console : q.console = p.console
  events : q.events = p.events
  children : q.children = p.children
  phase : q.phase = p.phase
  left : q.left = p.left
  ends : ∀ y ∈ order, ∃ x, q.parts[y.1]? = some x ∧ x.isOver = true
  others : ∀ i, i ∉ order.map Prod.fst → q.parts[i]? = p.parts[i]?

/-- **Programs end** that have made all of their writes, one after the other. -/
theorem leads_endAll (order : List (Nat × Launch)) (hnodup : (order.map Prod.fst).Nodup)
    (horder : ∀ y ∈ order, ∃ made, p.Stands y.1 y.2 made []) :
    ∃ q, Leads writes p q ∧ EndedAll order p q := by
  induction order generalizing p with
  | nil => exact ⟨p, .refl p, rfl, rfl, rfl, rfl, rfl, rfl, by simp, fun _ _ => rfl⟩
  | cons head order ih =>
      obtain ⟨n, launch⟩ := head
      rw [List.map_cons, List.nodup_cons] at hnodup
      have hfirst : n ∉ order.map Prod.fst := hnodup.1
      obtain ⟨made, x, hn, hcourse, hinto, hended⟩ := horder (n, launch) (by simp)
      have hlt := (List.getElem?_eq_some_iff.mp hn).1
      let y : Part := { x with ended := true }
      let p₁ := p.withEnded n x launch
      have hothers : ∀ i, i ≠ n → p₁.parts[i]? = p.parts[i]? := by
        intro i hi
        rw [parts_withEnded, List.getElem?_set_ne (Ne.symm hi)]
      have hrest : ∀ z ∈ order, ∃ made, p₁.Stands z.1 z.2 made [] := by
        intro z hz
        have hne : z.1 ≠ n := fun h => hfirst (h ▸ List.mem_map_of_mem hz)
        simp only [Stands, hothers z.1 hne]
        exact horder z (List.mem_cons_of_mem _ hz)
      obtain ⟨q, hq, hall⟩ := ih hnodup.2 hrest
      refine ⟨q, .advances (.ends hn hcourse hended) hq, hall.shell, hall.console, ?_,
        hall.children, hall.phase, hall.left, ?_, ?_⟩
      · exact hall.events.trans (filterMap_set_of_getElem? Part.event? hn (event?_ended x))
      · refine List.forall_mem_cons.mpr ⟨⟨y, ?_, ?_⟩, hall.ends⟩
        · exact (hall.others n hfirst).trans (List.getElem?_set_self hlt)
        · simp only [y, Part.isOver, hcourse, List.isEmpty_nil, Bool.and_self]
      · intro i hi
        rw [List.map_cons, List.mem_cons, not_or] at hi
        exact (hall.others i hi.2).trans (hothers i hi.1)

/-! ## The programs of a play -/

end Play

/-- The program that was started for a command, if one was. -/
def Part.launch? (x : Part) : Option Launch := x.event?.bind Event.launch?

theorem Part.course_of_launch? {x : Part} {launch : Launch} (h : x.launch? = some launch) :
    ∃ made pending, x.course = .program launch made pending := by
  obtain ⟨command, directory, into, course⟩ := x
  cases course with
  | program l made pending =>
      obtain rfl : l = launch := Option.some.inj h
      exact ⟨made, pending, rfl⟩
  | done => cases h
  | failed fault => cases h
  | fatal fault => cases h

theorem Part.launch?_ne_none {x : Part} {launch : Launch} {made pending : List Write}
    (h : x.course = .program launch made pending) : x.launch? ≠ none := by
  simp [Part.launch?, Part.event?, h, Event.launch?]

theorem Part.isOver_of_launch? {x : Part} (h : x.launch? = none) : x.isOver = true := by
  obtain ⟨command, directory, into, course⟩ := x
  cases course with
  | program l made pending => cases h
  | done => rfl
  | failed fault => rfl
  | fatal fault => rfl

namespace Play

/-- The programs that have been started, each with the place of its command in the line. -/
def programs (p : Play) : List (Nat × Launch) :=
  (List.range p.parts.length).filterMap fun i =>
    (p.parts[i]?.bind Part.launch?).map fun launch => (i, launch)

theorem mem_programs_iff {p : Play} {n : Nat} {launch : Launch} :
    (n, launch) ∈ p.programs ↔ ∃ x, p.parts[n]? = some x ∧ x.launch? = some launch := by
  simp only [programs, List.mem_filterMap, List.mem_range, Option.map_eq_some_iff,
    Option.bind_eq_some_iff, Prod.mk.injEq]
  constructor
  · rintro ⟨i, -, l, ⟨x, hx, hl⟩, rfl, rfl⟩
    exact ⟨x, hx, hl⟩
  · rintro ⟨x, hx, hl⟩
    exact ⟨n, (List.getElem?_eq_some_iff.mp hx).1, launch, ⟨x, hx, hl⟩, rfl, rfl⟩

theorem nodup_programs (p : Play) : (p.programs.map Prod.fst).Nodup := by
  have hfst : p.programs.map Prod.fst = (List.range p.parts.length).filterMap fun i =>
      (p.parts[i]?.bind Part.launch?).map fun _ => i := by
    simp only [programs, List.map_filterMap, Option.map_map]
    rfl
  rw [hfst]
  refine List.Nodup.filterMap ?_ List.nodup_range
  intro i j k hi hj
  obtain ⟨_, -, rfl⟩ := Option.map_eq_some_iff.mp hi
  obtain ⟨_, -, rfl⟩ := Option.map_eq_some_iff.mp hj
  rfl

/-- The programs are those that are told of, in the order of their start. -/
theorem map_snd_programs (p : Play) :
    p.programs.map Prod.snd = p.events.filterMap Event.launch? := by
  have hparts : ∀ parts : List Part,
      (List.range parts.length).filterMap (fun i => parts[i]?.bind Part.launch?) =
        parts.filterMap Part.launch? := by
    intro parts
    induction parts with
    | nil => rfl
    | cons x parts ih =>
        simp [List.range_succ_eq_map, List.filterMap_cons, List.filterMap_map, ih]
  rw [programs, List.map_filterMap, events, List.filterMap_filterMap]
  refine Eq.trans ?_ (hparts p.parts)
  simp [Option.map_map, Function.comp_def]

/-- The shell, and the programs after it. -/
theorem leads_programs {behaviour : Launch → Activity}
    (hcopies : ∀ launch, (behaviour launch).copiesInput = false) (s : Shell) (console : Console)
    (cs : List Command) :
    ∃ p q, Reaches (fun _ launch => (behaviour launch).writes) (start s console cs) p
        (s.runCommands cs) ∧
      Leads (fun _ launch => (behaviour launch).writes) p q ∧
      Performed (fun launch => (behaviour launch).writes)
        (p.programs.mergeSort fun a b => (behaviour a.2).delay ≤ (behaviour b.2).delay) p q ∧
      q.scene = p.scene.perform behaviour (s.runCommands cs).launches := by
  obtain ⟨p, hp⟩ : ∃ p, Reaches (fun _ launch => (behaviour launch).writes) (start s console cs) p
      (s.runCommands cs) := reaches_runCommands cs rfl rfl
  -- the order in which the programs get to write, with the place of each in the line
  have huntouched := hp.untouched (by simp [Untouched, start])
  have hevents : p.events = (s.runCommands cs).events := hp.events
  let order := p.programs.mergeSort fun a b => (behaviour a.2).delay ≤ (behaviour b.2).delay
  have hperm : order.Perm p.programs := List.mergeSort_perm _ _
  have hsorted : order.map Prod.snd = Scene.schedule behaviour (s.runCommands cs).launches := by
    have hmap : order.map Prod.snd = (p.programs.map Prod.snd).mergeSort fun l m =>
        (behaviour l).delay ≤ (behaviour m).delay := List.map_mergeSort fun _ _ _ _ => rfl
    rw [hmap, map_snd_programs, hevents]
    rfl
  have hnodup : (order.map Prod.fst).Nodup :=
    ((hperm.map Prod.fst).nodup_iff).mpr p.nodup_programs
  have horder : ∀ y ∈ order, p.Stands y.1 y.2 [] (behaviour y.2).writes := by
    rintro ⟨n, launch⟩ hx
    obtain ⟨y, hy, hlaunch⟩ := mem_programs_iff.mp (hperm.mem_iff.mp hx)
    obtain ⟨made, pending, hcourse⟩ := Part.course_of_launch? hlaunch
    obtain ⟨rfl, rfl, hinto, hended⟩ := huntouched n y hy launch made pending hcourse
    exact ⟨y, hy, hcourse, hinto, hended⟩
  obtain ⟨q, hlead, hperf, hscene⟩ :=
    leads_perform order hnodup (fun launch => (behaviour launch).writes) horder
  refine ⟨p, q, hp, hlead, hperf, hscene.trans ?_⟩
  rw [Scene.perform, ← hsorted, List.foldl_map]
  simp [Scene.act, hcopies]

/-- Once all of its programs have made their writes, they end, and then the line does. -/
theorem leads_finish {writes : Nat → Launch → List Write} {act : Launch → List Write}
    {order : List (Nat × Launch)} {p q : Play} (hready : p.phase = .ready) (hleft : p.left = [])
    (hperm : order.Perm p.programs) (h : Performed act order p q) :
    ∃ r, Leads writes q { r with phase := .ended .continues } ∧ EndedAll p.programs q r := by
  have hstands : ∀ y ∈ p.programs, ∃ made, q.Stands y.1 y.2 made [] :=
    fun y hy => ⟨_, h.written y (hperm.mem_iff.mpr hy)⟩
  obtain ⟨r, hlead, hended⟩ := leads_endAll p.programs p.nodup_programs hstands
  refine ⟨r, hlead.trans (.acted (.finish ?_ ?_ fun x hx => ?_) (.refl _)), hended⟩
  · exact hended.phase.trans (h.phase.trans hready)
  · exact hended.left.trans (h.left.trans hleft)
  · obtain ⟨i, hi⟩ := List.mem_iff_getElem?.mp hx
    by_cases hin : i ∈ p.programs.map Prod.fst
    · obtain ⟨y, hy, rfl⟩ := List.mem_map.mp hin
      obtain ⟨z, hz, hover⟩ := hended.ends y hy
      obtain rfl := Option.some.inj (hz.symm.trans hi)
      exact hover
    · -- nothing has happened to the other parts, and those have no program
      have hin' : i ∉ order.map Prod.fst :=
        fun hmem => hin ((hperm.map Prod.fst).mem_iff.mp hmem)
      rw [hended.others i hin, h.others i hin'] at hi
      refine Part.isOver_of_launch? (Option.eq_none_iff_forall_ne_some.mpr fun launch hl => ?_)
      exact hin (List.mem_map_of_mem (f := Prod.fst) (mem_programs_iff.mpr ⟨x, hi, hl⟩))

end Play

theorem Scene.announce_await (s : Scene) (r : LineRun) :
    s.announce r.await.events = s.announce r.events := by
  rw [announce_eq, announce_eq]
  simp [LineRun.await_eq, Event.notice?, Function.comp_def]

/-! ## A session -/

namespace Session

/-- **A session is one of the plays.** What the session makes of a line, and of the console, is what
comes of the line when its programs wait until the shell has taken its turns. -/
theorem follow_runLine {behaviour : Launch → Activity}
    (hcopies : ∀ launch, (behaviour launch).copiesInput = false) (s : Session) {line : Text}
    {cs : List Command} (hline : Line.commands line = .ok cs) :
    ∃ schedule p, (∀ turn ∈ schedule, turn.isSteady = true) ∧
      (Play.start s.shell s.console cs).follow
        (fun _ launch => (behaviour launch).writes) schedule = some p ∧
      p.phase = .ended (s.runLine behaviour line).2.status ∧
      p.console = (s.runLine behaviour line).1.console ∧
      p.result (s.runLine behaviour line).2.status =
        { (s.runLine behaviour line).2 with shell := (s.runLine behaviour line).1.shell } := by
  obtain ⟨p, q, hp, hlead, hperf, hscene⟩ := Play.leads_programs hcopies s.shell s.console cs
  have hlead' := hp.leads.trans hlead
  -- by the turns of the shell alone, the console has gained the notices and nothing else
  have hpscene : p.scene = Scene.announce
      { tree := (s.shell.runCommands cs).shell.system.tree, console := s.console }
        (s.shell.runCommands cs).events := by
    rw [Scene.announce_eq, Play.scene, hp.shell, hp.console]
    rfl
  rw [hpscene] at hscene
  have hevents : q.events = (s.shell.runCommands cs).events := hperf.events.trans hp.events
  have hchildren : q.children = (s.shell.runCommands cs).children :=
    hperf.children.trans hp.children
  have hprograms : p.programs.map Prod.snd = (s.shell.runCommands cs).children := by
    rw [p.map_snd_programs, hp.events, Shell.children_runCommands]
    rfl
  have hshell := hperf.shell
  rw [Play.withScene, hp.shell, hscene] at hshell
  have hphase := hp.phase
  have hconsole := congrArg Scene.console hscene
  simp only [Session.runLine, Shell.runLine, hline, Shell.runAll]
  generalize s.shell.runCommands cs = run at hphase hevents hchildren hprograms hshell hconsole ⊢
  obtain ⟨shell, events, children, status⟩ := run
  cases status with
  | continues =>
      obtain ⟨r, hfinish, hended⟩ : ∃ r,
          Play.Leads (fun _ l => (behaviour l).writes) q { r with phase := .ended .continues } ∧
            Play.EndedAll p.programs q r :=
        Play.leads_finish hphase.1 hphase.2 (List.mergeSort_perm _ _) hperf
      obtain ⟨schedule, hsteady, hschedule⟩ := hlead'.trans hfinish
      have hrshell := hended.shell
      rw [hprograms, hshell, LineRun.foldl_ended] at hrshell
      refine ⟨schedule, _, hsteady, hschedule, ?_, ?_, ?_⟩
      · simp only [LineRun.status_await]
        rfl
      · simp only [Scene.announce_await, LineRun.launches_await, LineRun.shell_await,
          LineRun.withEnded, LineRun.foldl_ended]
        exact hended.console.trans hconsole
      · have hrevents : r.events = events := hended.events.trans hevents
        simp only [Scene.announce_await, LineRun.launches_await, LineRun.withEnded,
          LineRun.foldl_ended]
        simp only [LineRun.await_eq, Play.result, hended.children, hchildren, hrshell]
        rw [← hrevents]
        rfl
  | _ =>
      -- the line has ended early, before its programs had their turns
      obtain ⟨schedule, hsteady, hschedule⟩ := hlead'
      refine ⟨schedule, q, hsteady, hschedule, hperf.phase.trans hphase, hconsole, ?_⟩
      simp only [Play.result, hevents, hchildren, hshell]

/-- So what a session makes of a line is what can come of it. -/
theorem playsSteadily_runLine {behaviour : Launch → Activity}
    (hcopies : ∀ launch, (behaviour launch).copiesInput = false) (s : Session) (line : Text) :
    s.shell.PlaysSteadily line
      { (s.runLine behaviour line).2 with shell := (s.runLine behaviour line).1.shell } := by
  unfold Shell.PlaysSteadily Shell.PlaysAlong
  split
  · rename_i m hline
    refine ⟨[], by simp, ?_⟩
    have hnone : [Event.reported (.malformed m) .inherited].filterMap Event.launch? = [] := rfl
    simp [runLine, Shell.runLine, hline, LineRun.launches, hnone, Scene.perform, Scene.schedule,
      Scene.announce_eq]
  · rename_i hline
    obtain ⟨schedule, p, hsteady, hschedule, hphase, -, hresult⟩ := s.follow_runLine hcopies hline
    exact ⟨schedule, hsteady, _, _, p, _, hschedule, hphase, hresult.symm⟩

end Session

/-- **Something can always come of a line**: what comes of it if its programs write nothing. -/
theorem Shell.playsSteadily_runLine (s : Shell) (line : Text) :
    s.PlaysSteadily line (s.runLine line) := by
  have hcopies : ∀ launch, ((fun _ => .idle : Launch → Activity) launch).copiesInput = false :=
    fun _ => rfl
  have hidle := Session.playsSteadily_runLine hcopies { shell := s, console := .ofInput [] } line
  have htree : ∀ (scene : Scene) (launches : List Launch),
      scene.perform (fun _ => .idle) launches = scene := by
    intro scene launches
    rw [Scene.perform]
    generalize Scene.schedule (fun _ => .idle) launches = order
    induction order with
    | nil => rfl
    | cons launch order ih => exact ih
  simp only [Session.runLine, htree, Scene.announce_eq] at hidle
  exact hidle

theorem Shell.plays_runLine (s : Shell) (line : Text) : s.Plays line (s.runLine line) :=
  (s.playsSteadily_runLine line).plays

end ParallelShell
