import ParallelShell.Proofs.Shell.Turns

set_option autoImplicit false

/-! # The commands of a line that fail

A command can fail in two of the shell's turns: when its target is opened, or when it is carried
out. `Play.failure?` says of a play whether that happens in the turn the shell would take next. If
the shell can go on after that, the next turn it takes is the one in which it writes the notice
(`Play.pending?`), and then the command is a part that has failed (`Play.reported`).

So along a schedule nothing of this is lost and nothing is told twice: the failures are those that
have been reported, in the same order, and one more if its notice is still to be written
(`reported_of_follow`).
-/

namespace ParallelShell

structure Failure where
  /-- The place of the command in its line, counted from zero. -/
  number : Nat
  fault : Fault
  /-- Where the notice goes. -/
  into : Destination
  deriving DecidableEq, Repr

def Failure.event (f : Failure) : Event := .reported f.fault f.into

namespace Event

def isReport : Event → Bool
  | reported _ _ => true
  | _ => false

/-- The failure that is reported of the command in a place. -/
def failure? (number : Nat) : Event → Option Failure
  | reported fault into => some { number, fault, into }
  | _ => none

end Event

namespace Shell

variable {s s' : Shell} {c : Command} {into : Destination} {fault : Fault}

/-- A line whose commands are carried out was well formed. -/
theorem ne_malformed_of_carryOut (h : s.carryOut c into = .error fault) (m : Malformed) :
    fault ≠ .malformed m := by
  rintro rfl
  unfold carryOut at h
  split at h
  · obtain ⟨cause, ⟨-, hfault⟩ | ⟨-, -, hfault⟩⟩ := startProgram_eq_error h
    · cases hfault
    · unfold Fault.ofStart at hfault
      split at hfault <;> cases hfault
  · unfold runBuiltIn at h
    split at h
    · cases h
    · cases h
    · unfold changeDirectory at h
      cases hd : s.system.tree.findDirectory s.system.directory _ with
      | error cause =>
          rw [hd] at h
          cases h
      | ok loc =>
          rw [hd] at h
          cases h
    · cases h
    · cases h
  · cases h

end Shell

namespace Play

variable {writes : Nat → Launch → List Write} {p q r : Play} {turn : Turn} {schedule : List Turn}
  {status : Status} {f : Failure}

/-- What fails when the shell takes its turn, if anything does and the shell can go on. -/
def failure? (p : Play) : Option Failure :=
  match p.phase with
  | .ready =>
    match p.left with
    | [] => none
    | c :: _ =>
      match p.shell.openTarget c.target with
      | .error fault => some { number := p.parts.length, fault, into := .inherited }
      | .ok _ => none
  | .opened c into =>
    match p.shell.carryOut c into with
    | .error fault =>
      if fault.isFatal then none else some { number := p.parts.length, fault, into }
    | .ok _ => none
  | _ => none

/-- The failure about which the shell writes the notice when it takes its turn. -/
def pending? (p : Play) : Option Failure :=
  match p.phase with
  | .failing _ fault into => some { number := p.parts.length, fault, into }
  | _ => none

/-- The failures about which a notice has been written. The commands are numbered before those are
picked out that have failed. -/
def reported (p : Play) : List Failure :=
  ((p.parts.map Part.event?).mapIdx fun n e => e.bind (Event.failure? n)).filterMap id

/-! ## What is told of failures -/

/-- Failures come in the order of their commands, and no command fails twice. -/
theorem pairwise_reported (p : Play) : p.reported.Pairwise fun f g => f.number < g.number := by
  have number : ∀ {n : Nat} {e : Option Event} {f : Failure},
      e.bind (Event.failure? n) = some f → f.number = n := by
    intro n e f h
    obtain ⟨e, -, h⟩ := Option.bind_eq_some_iff.mp h
    cases e with
    | reported fault into => exact Option.some.inj h ▸ rfl
    | started launch => cases h
    | waited k => cases h
  refine List.pairwise_filterMap.mpr (List.pairwise_iff_getElem.mpr ?_)
  intro i j hi hj hij f hf g hg
  rw [List.getElem_mapIdx] at hf hg
  have hfi := number hf
  have hgj := number hg
  omega

/-- The reports among what is told of a line are those of its failures. -/
theorem filter_isReport_events (p : Play) :
    p.events.filter Event.isReport = p.reported.map Failure.event := by
  have hlist : ∀ l : List (Option Event), (l.filterMap id).filter Event.isReport =
      ((l.mapIdx fun n e => e.bind (Event.failure? n)).filterMap id).map Failure.event := by
    intro l
    induction l using List.reverseRecOn with
    | nil => rfl
    | append_singleton l e ih =>
        rw [List.mapIdx_concat, List.filterMap_append, List.filterMap_append, List.filter_append,
          List.map_append, ih]
        cases e with
        | none => rfl
        | some e => cases e <;> rfl
  have hevents : p.events = (p.parts.map Part.event?).filterMap id := by
    rw [List.filterMap_map, Function.id_comp, events]
  rw [hevents, hlist, reported]

theorem filterMap_fault?_events (p : Play) :
    p.events.filterMap Event.fault? = p.reported.map Failure.fault := by
  have hreports : ∀ e : Event, (if Event.isReport e then Event.fault? e else none) =
      Event.fault? e := fun e => by
    cases e <;> rfl
  calc p.events.filterMap Event.fault?
      = (p.events.filter Event.isReport).filterMap Event.fault? := by
        rw [List.filterMap_filter]
        simp only [hreports]
    _ = (p.reported.map Failure.event).filterMap Event.fault? := by
        rw [filter_isReport_events]
    _ = p.reported.map Failure.fault := by
        rw [List.filterMap_map, ← List.filterMap_eq_map]
        rfl

/-! ## Turns -/

theorem reported_withPart (p : Play) (x : Part) :
    (p.withPart x).reported =
      p.reported ++ (x.event?.bind (Event.failure? p.parts.length)).toList := by
  simp only [reported, withPart, List.map_append, List.map_cons, List.map_nil]
  rw [List.mapIdx_concat, List.filterMap_append, List.length_map]
  cases x.event?.bind (Event.failure? p.parts.length) <;> rfl

/-- A part that has not failed adds no failure. -/
theorem reported_of_parts {x : Part} (hparts : q.parts = p.parts ++ [x])
    (hx : ∀ fault, x.course ≠ .failed fault) : q.reported = p.reported := by
  have hnone : x.event?.bind (Event.failure? p.parts.length) = none := by
    cases he : x.event? with
    | none => rfl
    | some e =>
        cases e with
        | reported fault into => exact absurd (course_of_reported he) (hx fault)
        | started launch => rfl
        | waited k => rfl
  have hwith := reported_withPart p x
  rw [hnone] at hwith
  calc q.reported = (p.withPart x).reported := by rw [reported, hparts]; rfl
    _ = p.reported := by rw [hwith, Option.toList_none, List.append_nil]

/-- **When the shell takes its turn**, a pending failure is reported, and what fails in that turn is
pending. -/
theorem reported_of_step_shell (h : p.step writes .shell = some q) :
    q.reported = p.reported ++ p.pending?.toList ∧ q.pending? = p.failure? := by
  cases acted_of_step h with
  | finish hp hl _ => simp [reported, pending?, failure?, hp, hl]
  | unopened hp hl ho => simp [reported, pending?, failure?, hp, hl, ho]
  | opened hp hl ho => simp [reported, pending?, failure?, hp, hl, ho]
  | notified hp =>
      refine ⟨?_, by simp [pending?, failure?, hp, notify, withPart]⟩
      simp only [notify, reported_withPart, pending?, hp]
      rfl
  | @carriedOut c into hp =>
      have hpending : p.pending? = none := by simp only [pending?, hp]
      rw [hpending, Option.toList_none, List.append_nil]
      have hcomes := comesTo_carryOut writes p c into
      generalize p.carryOut writes c into = q at hcomes ⊢
      cases hcomes with
      | started hc =>
          exact ⟨reported_of_parts rfl (by simp), by simp [pending?, withPart, failure?, hp, hc]⟩
      | done hc =>
          exact ⟨reported_of_parts rfl (by simp), by simp [pending?, withPart, failure?, hp, hc]⟩
      | exit hc => exact ⟨reported_of_parts rfl (by simp), by simp [pending?, failure?, hp, hc]⟩
      | fatal hc hf =>
          exact ⟨reported_of_parts rfl (by simp), by simp [pending?, failure?, hp, hc, hf]⟩
      | failed hc hf => exact ⟨rfl, by simp [pending?, failure?, hp, hc, hf]⟩

/-- Unless the shell takes its turn, nothing fails and nothing is reported. -/
theorem reported_of_step_of_ne (hturn : turn ≠ .shell) (h : p.step writes turn = some q) :
    q.reported = p.reported ∧ q.pending? = p.pending? := by
  cases turn with
  | shell => exact absurd rfl hturn
  | system supply =>
      obtain rfl := Option.some.inj h
      exact ⟨rfl, rfl⟩
  | program n =>
      cases step_program_iff.mp h with
      | written hn hcourse =>
          refine ⟨?_, by simp only [pending?, withWritten, withScene, List.length_set]⟩
          simp only [reported, parts_withWritten]
          rw [map_set_of_getElem? Part.event? hn (event?_eq_of_program hcourse _ _)]
      | @ends x _ _ hn _ _ =>
          refine ⟨?_, by simp only [pending?, withEnded, List.length_set]⟩
          simp only [reported, parts_withEnded]
          rw [map_set_of_getElem? Part.event? hn (event?_ended x)]

/-- **Along a schedule**, every failure becomes pending, and every pending failure is reported. -/
theorem reported_of_follow (h : p.follow writes schedule = some q) :
    q.reported = p.reported ++ (p.acting writes schedule).filterMap pending? ∧
      q.reported ++ q.pending?.toList =
        p.reported ++ p.pending?.toList ++ (p.acting writes schedule).filterMap failure? := by
  induction schedule generalizing p with
  | nil =>
      obtain rfl := Option.some.inj h
      simp [acting]
  | cons turn schedule ih =>
      obtain ⟨r, hstep, h⟩ := follow_cons_eq_some_iff.mp h
      obtain ⟨hreported, hall⟩ := ih h
      by_cases hturn : turn = .shell
      · obtain rfl := hturn
        obtain ⟨htold, hnext⟩ := reported_of_step_shell hstep
        have hacting : p.acting writes (.shell :: schedule) = p :: r.acting writes schedule := by
          simp only [acting, hstep, if_true, List.singleton_append]
        have hcons : ∀ g : Play → Option Failure, (p :: r.acting writes schedule).filterMap g =
            (g p).toList ++ (r.acting writes schedule).filterMap g := fun g => by
          cases hg : g p <;> simp [hg]
        rw [hacting, hcons, hcons]
        refine ⟨?_, ?_⟩
        · rw [hreported, htold, List.append_assoc]
        · rw [hall, htold, hnext, List.append_assoc]
      · obtain ⟨hsame, hpending⟩ := reported_of_step_of_ne hturn hstep
        rw [hsame] at hreported hall
        rw [hpending] at hall
        simp only [acting, hstep, hturn, if_false, List.nil_append]
        exact ⟨hreported, hall⟩

/-- Of a line that has ended, every failure has been reported. -/
theorem reported_of_ended {s : Shell} {console : Console} {cs : List Command}
    (h : (start s console cs).follow writes schedule = some p) (hend : p.phase = .ended status) :
    p.reported = ((start s console cs).acting writes schedule).filterMap pending? ∧
      p.reported = ((start s console cs).acting writes schedule).filterMap failure? := by
  obtain ⟨hreported, hall⟩ := reported_of_follow h
  have hnone : p.pending? = none := by simp only [pending?, hend]
  rw [hnone] at hall
  refine ⟨by simpa [start, reported] using hreported, ?_⟩
  simpa [start, reported, pending?] using hall

/-! ## What a failure is -/

/-- **A command fails** because its target cannot be opened, or because it cannot be carried out. -/
theorem failure?_eq_some (h : p.failure? = some f) : f.number = p.parts.length ∧
    ((∃ c left, p.phase = .ready ∧ p.left = c :: left ∧
        p.shell.openTarget c.target = .error f.fault ∧ f.into = .inherited) ∨
      ∃ c, p.phase = .opened c f.into ∧ p.shell.carryOut c f.into = .error f.fault ∧
        f.fault.isFatal = false) := by
  unfold failure? at h
  split at h
  · rename_i hp
    split at h
    · cases h
    · rename_i c left hl
      split at h
      · rename_i ho
        obtain rfl := Option.some.inj h
        exact ⟨rfl, Or.inl ⟨c, left, hp, hl, ho, rfl⟩⟩
      · cases h
  · rename_i c into hp
    split at h
    · rename_i hc
      split at h
      · cases h
      · rename_i hf
        obtain rfl := Option.some.inj h
        exact ⟨rfl, Or.inr ⟨c, hp, hc, by simpa using hf⟩⟩
    · cases h
  · cases h

/-- No failure of a command is a malformed redirection. -/
theorem ne_malformed_of_failure? (h : p.failure? = some f) (m : Malformed) :
    f.fault ≠ .malformed m := by
  rcases (failure?_eq_some h).2 with ⟨c, left, -, -, ho, -⟩ | ⟨c, -, hc, -⟩
  · obtain ⟨path, cause, -, hfault⟩ := Shell.openTarget_eq_error ho
    simp [hfault]
  · exact Shell.ne_malformed_of_carryOut hc m

end Play

end ParallelShell
