import ParallelShell.Proofs.Shell.Resemblance
import ParallelShell.Proofs.Shell.Turns

set_option autoImplicit false

/-! # Playing on without a command that fails

A command that fails without ending the line leaves its notice, and perhaps an emptied target, and
nothing else. So from its turn on, the line can be played without it: everybody else takes the same
turns, and all the other commands come to the same.

The two plays are compared turn by turn. While the shell tries the command, the other play waits for
its next command (`Play.AtFailure`); from then on it is the same but for one part
(`Play.PastFailure`), in a shell that differs at most in the target of the command. That the two
shells do the same further on rests on one proviso: no command behind it executes this target
(`Play.Spares`).
-/

namespace ParallelShell

/-! ## Turns, and writes, without a command -/

/-- A turn, if the command of a number is not there: the programs behind it move up. -/
def Turn.without (n : Nat) : Turn → Turn
  | .program k => .program (if n < k then k - 1 else k)
  | turn => turn

def writesWithout {α : Type} (n : Nat) (writes : Nat → α) : Nat → α :=
  fun k => writes (if k < n then k else k + 1)

theorem writesWithout_of_lt {α : Type} {writes : Nat → α} {n k : Nat} (h : k < n) :
    writesWithout n writes k = writes k := by rw [writesWithout, if_pos h]

theorem writesWithout_of_le {α : Type} {writes : Nat → α} {n k : Nat} (h : n ≤ k) :
    writesWithout n writes k = writes (k + 1) := by rw [writesWithout, if_neg (by omega)]

/-- **The same turns without those that the shell spends on a command**: the others stay, in the
same order. -/
inductive Turn.Skips (n : Nat) : List Turn → List Turn → Prop
  | nil : Skips n [] []
  | skip {schedule schedule' : List Turn} :
      Skips n schedule schedule' → Skips n (.shell :: schedule) schedule'
  | take {schedule schedule' : List Turn} (turn : Turn) :
      Skips n schedule schedule' → Skips n (turn :: schedule) (turn.without n :: schedule')

theorem Turn.Skips.map_without (n : Nat) (schedule : List Turn) :
    Skips n schedule (schedule.map (without n)) := by
  induction schedule with
  | nil => exact .nil
  | cons turn schedule ih => exact .take turn ih

theorem Turn.Skips.append {n : Nat} {l l' m m' : List Turn} (h : Skips n l l')
    (h' : Skips n m m') : Skips n (l ++ m) (l' ++ m') := by
  induction h with
  | nil => exact h'
  | skip _ ih => exact .skip ih
  | take turn _ ih => exact .take turn ih

namespace Play

variable {W : Location → Prop} {writes : Nat → Launch → List Write} {n : Nat}
  {p p' q r : Play} {turn : Turn} {schedule : List Turn}

/-- The files that are executed if the shell takes its turn now. -/
def executes (p : Play) : List Location :=
  match p.phase with
  | .opened c into => p.shell.executes c into
  | _ => []

/-! ## While the command is tried -/

/-- A play in which the shell is trying a command, and one that has come to the next command without
it. -/
structure AtFailure (W : Location → Prop) (p p' : Play) : Prop where
  phase : ∃ c into, (p.phase = .opened c into ∨ ∃ fault, p.phase = .failing c fault into) ∧
    ∀ loc, into = .file loc → W loc
  ready : p'.phase = .ready
  parts : p'.parts = p.parts
  children : p'.children = p.children
  left : p'.left = p.left
  shell : p'.shell.Resembles W p.shell

/-- A play in which a command has failed, and one without it. -/
structure PastFailure (W : Location → Prop) (n : Nat) (p p' : Play) : Prop where
  failed : ∃ x fault, p.parts[n]? = some x ∧ x.course = .failed fault
  phase : p'.phase = p.phase
  parts : p'.parts = p.parts.eraseIdx n
  children : p'.children = p.children
  left : p'.left = p.left
  shell : p'.shell.Resembles W p.shell

/-- The same write is made on both sides. -/
theorem resembles_write (h : p'.shell.Resembles W p.shell) (into : Destination) (offset : Nat)
    (w : Write) :
    (p'.withScene (p'.scene.write into offset w)).shell.Resembles W
      (p.withScene (p.scene.write into offset w)).shell := by
  cases into with
  | inherited => exact h
  | device d => exact h
  | file loc => exact { h with tree := h.tree.writeAt loc offset w.data }

/-- A program that has the same part on both sides can take the same turn on both. -/
theorem Advances.transfer {k k' : Nat} (h : Advances p k q) (hs : p'.shell.Resembles W p.shell)
    (hk : p'.parts[k']? = p.parts[k]?) : ∃ y q', Advances p' k' q' ∧
      q.parts = p.parts.set k y ∧ q'.parts = p'.parts.set k' y ∧ q'.shell.Resembles W q.shell := by
  cases h with
  | @written x launch made pending w hn hcourse =>
      exact ⟨_, _, .written (hk.trans hn) hcourse, rfl, rfl, resembles_write hs _ _ w⟩
  | @ends x launch made hn hcourse hended =>
      exact ⟨_, _, .ends (hk.trans hn) hcourse hended, rfl, rfl, hs.ended launch⟩

theorem Advances.course {k : Nat} (h : Advances p k q) :
    ∃ x launch made pending, p.parts[k]? = some x ∧ x.course = .program launch made pending := by
  cases h with
  | written hn hcourse => exact ⟨_, _, _, _, hn, hcourse⟩
  | ends hn hcourse _ => exact ⟨_, _, _, _, hn, hcourse⟩

theorem AtFailure.of_ne_shell (h : AtFailure W p p') (hturn : turn ≠ .shell)
    (hstep : p.step writes turn = some q) (writes' : Nat → Launch → List Write) :
    ∃ q', p'.step writes' turn = some q' ∧ AtFailure W q q' := by
  cases turn with
  | shell => exact absurd rfl hturn
  | system supply =>
      obtain rfl := Option.some.inj hstep
      exact ⟨_, rfl, h.phase, h.ready, h.parts, h.children, h.left, { h.shell with supply := rfl }⟩
  | program k =>
      obtain ⟨y, q', hq', hparts, hparts', hs⟩ :=
        (step_program_iff.mp hstep).transfer h.shell (by rw [h.parts])
      have hstep' : p'.step writes' (.program k) = some q' := step_program_iff.mpr hq'
      have hsame := sameTurn_of_program hstep
      have hsame' := sameTurn_of_program hstep'
      refine ⟨q', hstep', by rw [hsame.phase]; exact h.phase, hsame'.phase.trans h.ready, ?_, ?_,
        ?_, hs⟩
      · rw [hparts', hparts, h.parts]
      · rw [hsame'.children, hsame.children, h.children]
      · rw [hsame'.left, hsame.left, h.left]

/-- What comes of a command for which the shell takes another turn: it is still being tried, or it
has failed, or it has become something else. -/
theorem AtFailure.shell_turn (h : AtFailure W p p') (hstep : p.step writes .shell = some q) :
    (AtFailure W q p' ∧ q.parts.length = p.parts.length) ∨ PastFailure W p.parts.length q p' ∨
      ∃ x, q.parts[p.parts.length]? = some x ∧ ∀ fault, x.course ≠ .failed fault := by
  obtain ⟨c, into, hphase | ⟨fault, hphase⟩, hinto⟩ := h.phase
  · simp only [step, hphase] at hstep
    obtain rfl := Option.some.inj hstep
    have hdone := carriedOut writes p c into
    generalize p.carryOut writes c into = q at hdone ⊢
    cases hdone with
    | part _ hfresh _ =>
        refine Or.inr (Or.inr ⟨_, List.getElem?_concat_length, fun fault hcourse => ?_⟩)
        obtain rfl : _ = Course.failed fault := hcourse
        exact hfresh
    | @failing fault =>
        have hfailing : AtFailure W { p with phase := .failing c fault into } p' :=
          ⟨⟨c, into, Or.inr ⟨fault, rfl⟩, hinto⟩, h.ready, h.parts, h.children, h.left, h.shell⟩
        exact Or.inl ⟨hfailing, rfl⟩
  · simp only [step, hphase] at hstep
    obtain rfl := Option.some.inj hstep
    refine Or.inr (Or.inl ⟨⟨p.shell.part c into (.failed fault), fault, ?_, rfl⟩, h.ready, ?_,
      h.children, h.left, h.shell.notify_right hinto⟩)
    · simp [notify, withPart]
    · rw [h.parts]
      simp [notify, withPart, List.eraseIdx_append_of_length_le]

/-! ## Past the command -/

theorem PastFailure.lt_length (h : PastFailure W n p p') : n < p.parts.length := by
  obtain ⟨x, -, hx, -⟩ := h.failed
  exact (List.getElem?_eq_some_iff.mp hx).1

theorem PastFailure.length_eq (h : PastFailure W n p p') :
    p'.parts.length + 1 = p.parts.length := by
  have hlt := h.lt_length
  rw [h.parts, List.length_eraseIdx_of_lt hlt]
  omega

theorem PastFailure.program (h : PastFailure W n p p') {k : Nat}
    (hstep : p.step writes (.program k) = some q) (writes' : Nat → Launch → List Write) :
    ∃ q', p'.step writes' (Turn.without n (.program k)) = some q' ∧ PastFailure W n q q' := by
  have hq := step_program_iff.mp hstep
  obtain ⟨x, launch, made, pending, hn, hcourse⟩ := hq.course
  obtain ⟨y, fault, hy, hfailed⟩ := h.failed
  have hne : k ≠ n := by
    rintro rfl
    obtain rfl := Option.some.inj (hn.symm.trans hy)
    cases hcourse.symm.trans hfailed
  -- without the command, the program keeps its place or moves up
  obtain ⟨k', hk', hx, hset⟩ : ∃ k', Turn.without n (.program k) = .program k' ∧
      p'.parts[k']? = p.parts[k]? ∧ ∀ z, (p.parts.set k z).eraseIdx n = p'.parts.set k' z := by
    rcases Nat.lt_or_gt_of_ne hne with hlt | hgt
    · refine ⟨k, by rw [Turn.without, if_neg (by omega)], ?_, fun z => ?_⟩
      · rw [h.parts, List.getElem?_eraseIdx_of_lt hlt]
      · rw [h.parts, List.eraseIdx_set_gt hlt]
    · refine ⟨k - 1, by rw [Turn.without, if_pos hgt], ?_, fun z => ?_⟩
      · rw [h.parts, List.getElem?_eraseIdx_of_ge (by omega), Nat.sub_add_cancel (by omega)]
      · rw [h.parts, List.eraseIdx_set_lt hgt]
  obtain ⟨z, q', hq', hparts, hparts', hs⟩ := hq.transfer h.shell hx
  have hstep' : p'.step writes' (.program k') = some q' := step_program_iff.mpr hq'
  have hsame := sameTurn_of_program hstep
  have hsame' := sameTurn_of_program hstep'
  refine ⟨q', by rw [hk', hstep'], ⟨y, fault, ?_, hfailed⟩, ?_, ?_, ?_, ?_, hs⟩
  · rw [hparts, List.getElem?_set_ne hne, hy]
  · rw [hsame'.phase, hsame.phase, h.phase]
  · rw [hparts', hparts, hset]
  · rw [hsame'.children, hsame.children, h.children]
  · rw [hsame'.left, hsame.left, h.left]

/-- One more command has had its turn on both sides. -/
theorem PastFailure.withPart (h : PastFailure W n p p') (x : Part) :
    PastFailure W n (p.withPart x) (p'.withPart x) where
  failed := by
    obtain ⟨y, fault, hy, hfailed⟩ := h.failed
    exact ⟨y, fault, (List.getElem?_append_left h.lt_length).trans hy, hfailed⟩
  phase := rfl
  parts := by
    change p'.parts ++ [x] = (p.parts ++ [x]).eraseIdx n
    rw [h.parts, List.eraseIdx_append_of_lt_length h.lt_length]
  children := h.children
  left := h.left
  shell := h.shell

theorem PastFailure.withShell (h : PastFailure W n p p') {s s' : Shell} (hs : s'.Resembles W s) :
    PastFailure W n { p with shell := s } { p' with shell := s' } :=
  ⟨h.failed, h.phase, h.parts, h.children, h.left, hs⟩

theorem PastFailure.withChild (h : PastFailure W n p p') {s s' : Shell} (hs : s'.Resembles W s)
    (launch : Launch) : PastFailure W n (p.withChild s launch) (p'.withChild s' launch) :=
  ⟨h.failed, h.phase, h.parts, congrArg (· ++ [launch]) h.children, h.left, hs⟩

theorem PastFailure.part_eq (h : PastFailure W n p p') (c : Command) (into : Destination)
    (course : Course) : p'.shell.part c into course = p.shell.part c into course := by
  rw [Shell.part, Shell.part, h.shell.directory]

theorem PastFailure.carryOut (h : PastFailure W n p p') {c : Command} {into : Destination}
    (hf : ∀ loc ∈ p.shell.executes c into, ¬ W loc) :
    PastFailure W n (p.carryOut writes c into)
      (p'.carryOut (writesWithout n writes) c into) := by
  have hagree := Shell.carryOut_resembles h.shell hf
  generalize hc' : p'.shell.carryOut c into = a at hagree
  generalize hc : p.shell.carryOut c into = b at hagree
  cases hagree with
  | error fault =>
      cases hfatal : fault.isFatal with
      | true =>
          rw [carryOut_of_fatal hc hfatal, carryOut_of_fatal hc' hfatal, h.part_eq]
          exact { h.withPart (p.shell.part c into (.fatal fault)) with phase := rfl }
      | false =>
          rw [carryOut_of_failed hc hfatal, carryOut_of_failed hc' hfatal]
          exact { h with phase := rfl }
  | @ok x y hxy =>
      obtain ⟨s', action'⟩ := x
      obtain ⟨s, action⟩ := y
      obtain ⟨hs, rfl⟩ := hxy
      cases action' with
      | started launch =>
          -- the writes of the program are those at its new number
          have hwrites : writesWithout n writes p'.parts.length = writes p.parts.length := by
            have hlt := h.lt_length
            have hlength := h.length_eq
            rw [writesWithout_of_le (by omega), hlength]
          rw [carryOut_of_started hc, carryOut_of_started hc', h.part_eq, hwrites]
          exact (h.withChild hs launch).withPart _
      | done =>
          rw [carryOut_of_done hc, carryOut_of_done hc', h.part_eq]
          exact (h.withShell hs).withPart _
      | exit =>
          rw [carryOut_of_exit hc, carryOut_of_exit hc', h.part_eq]
          exact { (h.withShell hs).withPart (p.shell.part c into .done) with phase := rfl }

theorem PastFailure.open? (h : PastFailure W n p p') (ho : p.open? = some q) :
    ∃ q', p'.open? = some q' ∧ PastFailure W n q q' := by
  have hleft := h.left
  cases hl : p.left with
  | nil =>
      simp only [Play.open?, hl] at ho
      simp only [Play.open?, hleft.trans hl]
      split at ho
      · rename_i hover
        obtain rfl := Option.some.inj ho
        have hover' : p'.parts.all Part.isOver = true := by
          rw [h.parts]
          exact List.all_eq_true.mpr fun x hx =>
            List.all_eq_true.mp hover x (List.mem_of_mem_eraseIdx hx)
        rw [if_pos hover']
        exact ⟨_, rfl, { h with phase := rfl, left := rfl }⟩
      · cases ho
  | cons c left =>
      simp only [Play.open?, hl] at ho
      simp only [Play.open?, hleft.trans hl]
      have hagree := Shell.openTarget_resembles h.shell c.target
      generalize p'.shell.openTarget c.target = a at hagree ⊢
      generalize p.shell.openTarget c.target = b at hagree ho
      cases hagree with
      | error fault =>
          obtain rfl := Option.some.inj ho
          exact ⟨_, rfl, { h with phase := rfl, left := rfl }⟩
      | @ok x y hxy =>
          obtain ⟨s', into'⟩ := x
          obtain ⟨s, into⟩ := y
          obtain ⟨hs, rfl⟩ := hxy
          obtain rfl := Option.some.inj ho
          exact ⟨_, rfl, { h with phase := rfl, left := rfl, shell := hs }⟩

/-- **Past the command, every turn can be taken without it**, if no file of `W` is executed then. -/
theorem PastFailure.step (h : PastFailure W n p p') (hstep : p.step writes turn = some q)
    (hf : turn = .shell → ∀ loc ∈ p.executes, ¬ W loc) :
    ∃ q', p'.step (writesWithout n writes) (turn.without n) = some q' ∧ PastFailure W n q q' := by
  cases turn with
  | program k => exact h.program hstep _
  | system supply =>
      obtain rfl := Option.some.inj hstep
      exact ⟨_, rfl, h.failed, h.phase, h.parts, h.children, h.left,
        { h.shell with supply := rfl }⟩
  | shell =>
      have hphase := h.phase
      cases hp : p.phase with
      | ready =>
          simp only [Play.step, hp] at hstep
          simp only [Turn.without, Play.step, hphase.trans hp]
          exact h.open? hstep
      | opened c into =>
          simp only [Play.step, hp] at hstep
          simp only [Turn.without, Play.step, hphase.trans hp]
          have hexecutes : p.executes = p.shell.executes c into := by rw [executes, hp]
          exact ⟨_, rfl, Option.some.inj hstep ▸ h.carryOut (hexecutes ▸ hf rfl)⟩
      | failing c fault into =>
          simp only [Play.step, hp] at hstep
          simp only [Turn.without, Play.step, hphase.trans hp]
          obtain rfl := Option.some.inj hstep
          rw [notify_eq, notify_eq, h.part_eq]
          exact ⟨_, rfl, ({ h with shell := resembles_write h.shell into 0 Part.notice } :
            PastFailure W n (p.withScene _) (p'.withScene _)).withPart _⟩
      | ended status =>
          simp only [Play.step, hp] at hstep
          cases hstep

/-! ## To the end of the line -/

/-- Programs stand before the command that is tried. -/
theorem without_eq_self (hn : p.parts.length ≤ n) (hstep : p.step writes turn = some q) :
    turn.without n = turn := by
  cases turn with
  | shell => rfl
  | system supply => rfl
  | program k =>
      obtain ⟨x, _, _, _, hk, -⟩ := (step_program_iff.mp hstep).course
      have hlt := (List.getElem?_eq_some_iff.mp hk).1
      rw [Turn.without, if_neg (by omega)]

/-- No command behind that of a number executes a file of `W`. -/
def Spares (W : Location → Prop) (writes : Nat → Launch → List Write) (n : Nat) (p : Play)
    (schedule : List Turn) : Prop :=
  ∀ r, Acts writes p schedule r → n < r.parts.length → ∀ loc ∈ r.executes, ¬ W loc

theorem Spares.later (h : Spares W writes n p (turn :: schedule))
    (hstep : p.step writes turn = some q) : Spares W writes n q schedule :=
  fun r hr => h r (.later hstep hr)

theorem PastFailure.follow (h : PastFailure W n p p') (hq : p.follow writes schedule = some q)
    (hspares : Spares W writes n p schedule) :
    ∃ q', p'.follow (writesWithout n writes) (schedule.map (Turn.without n)) = some q' ∧
      PastFailure W n q q' := by
  induction schedule generalizing p p' with
  | nil =>
      obtain rfl := Option.some.inj hq
      exact ⟨p', rfl, h⟩
  | cons turn schedule ih =>
      obtain ⟨r, hstep, hq⟩ := follow_cons_eq_some_iff.mp hq
      obtain ⟨r', hstep', hr⟩ := h.step hstep fun hturn => by
        subst hturn
        exact hspares p (.now p schedule) h.lt_length
      obtain ⟨q', hfollow, hq'⟩ := ih hr hq (hspares.later hstep)
      exact ⟨q', follow_cons_eq_some_iff.mpr ⟨r', hstep', hfollow⟩, hq'⟩

/-- **From the moment the command is tried**, the line can be played without it. -/
theorem AtFailure.follow (h : AtFailure W p p') (hn : p.parts.length = n)
    (hq : p.follow writes schedule = some q) {x : Part} {fault : Fault}
    (hx : q.parts[n]? = some x) (hfailed : x.course = .failed fault)
    (hspares : Spares W writes n p schedule) :
    ∃ schedule' q', Turn.Skips n schedule schedule' ∧
      p'.follow (writesWithout n writes) schedule' = some q' ∧ PastFailure W n q q' := by
  induction schedule generalizing p p' with
  | nil =>
      obtain rfl := Option.some.inj hq
      have hlt := (List.getElem?_eq_some_iff.mp hx).1
      omega
  | cons turn schedule ih =>
      obtain ⟨r, hstep, hrest⟩ := follow_cons_eq_some_iff.mp hq
      by_cases hturn : turn = .shell
      · subst hturn hn
        rcases h.shell_turn hstep with ⟨hr, hlength⟩ | hr | ⟨y, hy, hne⟩
        · obtain ⟨schedule', q', hskips, hfollow, hq'⟩ :=
            ih hr hlength hrest (hspares.later hstep)
          exact ⟨schedule', q', .skip hskips, hfollow, hq'⟩
        · obtain ⟨q', hfollow, hq'⟩ := hr.follow hrest (hspares.later hstep)
          exact ⟨_, q', .skip (.map_without _ _), hfollow, hq'⟩
        · -- a command that has not failed would not have failed at the end
          obtain ⟨z, hz, hne⟩ := ne_failed_of_follow hrest hy hne
          obtain rfl := Option.some.inj (hz.symm.trans hx)
          exact absurd hfailed (hne fault)
      · obtain ⟨r', hstep', hr⟩ := h.of_ne_shell hturn hstep (writesWithout n writes)
        have hlength := (sameTurn_of_ne_shell hstep hturn).length.trans hn
        obtain ⟨schedule', q', hskips, hfollow, hq'⟩ := ih hr hlength hrest (hspares.later hstep)
        refine ⟨_, q', .take _ hskips, follow_cons_eq_some_iff.mpr ⟨r', ?_, hfollow⟩, hq'⟩
        rw [without_eq_self (Nat.le_of_eq hn) hstep, hstep']

end Play

end ParallelShell
