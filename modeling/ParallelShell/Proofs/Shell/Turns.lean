import Mathlib.Data.List.Induction
import ParallelShell.Proofs.Shell.Play

set_option autoImplicit false

/-! # The turns of a schedule

What a line does is decided in the turns of the shell, and what the shell finds there depends on the
turns before. `Play.Acts` says that the shell takes its turn in some play, on the way along a
schedule. A command whose target is opened has such a turn, and before it there are as many parts as
commands stand before this one in the line (`Play.exists_turn`, `Play.Opens`).

A turn looks at the commands that follow only to take the first of them, and at the writes of no
other programs than those that are there. So the same schedule can be followed with other commands
behind those that are reached (`Play.follow_withLeft`), and with other writes of programs that are
not started (`Play.follow_of_writes_eq`).
-/

namespace ParallelShell

namespace Play

variable {writes : Nat → Launch → List Write} {p q r : Play} {turn : Turn} {schedule : List Turn}
  {status : Status}

/-- **The shell takes its turn** in the last of these plays, on the way along a schedule. -/
inductive Acts (writes : Nat → Launch → List Write) : Play → List Turn → Play → Prop
  | now (p : Play) (schedule : List Turn) : Acts writes p (.shell :: schedule) p
  | later {p r q : Play} {turn : Turn} {schedule : List Turn} :
      p.step writes turn = some r → Acts writes r schedule q → Acts writes p (turn :: schedule) q

/-- The plays in which the shell takes its turn, on the way along a schedule. -/
def acting (writes : Nat → Launch → List Write) (p : Play) : List Turn → List Play
  | [] => []
  | turn :: schedule =>
    (if turn = .shell then [p] else []) ++
      match p.step writes turn with
      | none => []
      | some p => p.acting writes schedule

theorem acts_iff_mem_acting : Acts writes p schedule q ↔ q ∈ p.acting writes schedule := by
  constructor
  · intro h
    induction h with
    | now p schedule => simp [acting]
    | later hstep _ ih =>
        rw [acting, hstep]
        exact List.mem_append_right _ ih
  · intro h
    induction schedule generalizing p with
    | nil => cases h
    | cons turn schedule ih =>
        rw [acting] at h
        rcases List.mem_append.mp h with h | h
        · split at h
          · rename_i hturn
            rw [List.mem_singleton.mp h, hturn]
            exact .now p schedule
          · cases h
        · split at h
          · cases h
          · rename_i hstep
            exact .later hstep (ih h)

theorem follow_cons_eq_some_iff : p.follow writes (turn :: schedule) = some q ↔
    ∃ r, p.step writes turn = some r ∧ r.follow writes schedule = some q := by
  rw [follow]
  cases p.step writes turn <;> simp

theorem follow_append_eq_some_iff {before after : List Turn} :
    p.follow writes (before ++ after) = some q ↔
      ∃ r, p.follow writes before = some r ∧ r.follow writes after = some q := by
  induction before generalizing p with
  | nil => simp [follow]
  | cons turn before ih =>
      simp only [List.cons_append, follow_cons_eq_some_iff, ih]
      constructor
      · rintro ⟨x, hstep, r, hr, hq⟩
        exact ⟨r, ⟨x, hstep, hr⟩, hq⟩
      · rintro ⟨r, ⟨x, hstep, hr⟩, hq⟩
        exact ⟨x, hstep, r, hr, hq⟩

theorem follow_of_acts (h : Acts writes p schedule q) :
    ∃ before, p.follow writes before = some q := by
  induction h with
  | now p schedule => exact ⟨[], rfl⟩
  | later hstep _ ih =>
      obtain ⟨before, h⟩ := ih
      exact ⟨_ :: before, follow_cons_eq_some_iff.mpr ⟨_, hstep, h⟩⟩

theorem acts_append {before after : List Turn} (h : p.follow writes before = some q)
    (hr : Acts writes q after r) : Acts writes p (before ++ after) r := by
  induction before generalizing p with
  | nil => exact Option.some.inj h ▸ hr
  | cons turn before ih =>
      obtain ⟨x, hstep, h⟩ := follow_cons_eq_some_iff.mp h
      exact .later hstep (ih h)

/-- Along a schedule in two parts, the shell takes its turns in the one and then in the other. -/
theorem acting_append {before after : List Turn} (h : p.follow writes before = some q) :
    p.acting writes (before ++ after) = p.acting writes before ++ q.acting writes after := by
  induction before generalizing p with
  | nil => exact Option.some.inj h ▸ rfl
  | cons turn before ih =>
      obtain ⟨x, hstep, h⟩ := follow_cons_eq_some_iff.mp h
      simp only [List.cons_append, acting, hstep, ih h, List.append_assoc]

/-- One more turn is the shell's last, or not the shell's. -/
theorem acts_concat_iff (h : p.follow writes schedule = some q) :
    Acts writes p (schedule ++ [turn]) r ↔
      Acts writes p schedule r ∨ (turn = .shell ∧ r = q) := by
  have hlast : r ∈ q.acting writes [turn] ↔ turn = .shell ∧ r = q := by
    have hnone : (match q.step writes turn with
        | none => []
        | some x => x.acting writes []) = [] := by split <;> rfl
    rw [acting, hnone, List.append_nil]
    by_cases hturn : turn = .shell <;> simp [hturn]
  rw [acts_iff_mem_acting, acts_iff_mem_acting, acting_append h, List.mem_append, hlast]

theorem Acts.append_right (h : Acts writes p schedule q) (after : List Turn) :
    Acts writes p (schedule ++ after) q := by
  induction h with
  | now p schedule => exact .now p (schedule ++ after)
  | later hstep _ ih => exact .later hstep ih

/-- A turn of the shell comes after some turns and before others. -/
theorem exists_append_of_acts (h : Acts writes p schedule q) :
    ∃ before after, schedule = before ++ .shell :: after ∧ p.follow writes before = some q := by
  induction h with
  | now p schedule => exact ⟨[], schedule, rfl, rfl⟩
  | @later p r q turn schedule hstep _ ih =>
      obtain ⟨before, after, rfl, h⟩ := ih
      exact ⟨turn :: before, after, rfl, follow_cons_eq_some_iff.mpr ⟨r, hstep, h⟩⟩

/-- **What holds at the beginning of a schedule, and after one more turn**, holds after all of it;
and it may speak of the turns so far. -/
theorem follow_induction {P : List Turn → Play → Prop} (hnil : P [] p)
    (hsnoc : ∀ schedule turn q r, p.follow writes schedule = some q →
      q.step writes turn = some r → P schedule q → P (schedule ++ [turn]) r)
    (h : p.follow writes schedule = some q) : P schedule q := by
  induction schedule using List.reverseRecOn generalizing q with
  | nil => exact Option.some.inj h ▸ hnil
  | append_singleton schedule turn ih =>
      obtain ⟨r, hr, hlast⟩ := follow_append_eq_some_iff.mp h
      obtain ⟨x, hstep, hx⟩ := follow_cons_eq_some_iff.mp hlast
      obtain rfl := Option.some.inj hx
      exact hsnoc schedule turn r x hr hstep (ih hr)

/-! ## The parts of a play -/

/-- **What every turn does to the parts**: nothing, or there is one more, or a program has got
further. -/
theorem parts_of_step (h : Step writes p q) :
    q.parts = p.parts ∨ (∃ x, q.parts = p.parts ++ [x]) ∨
      ∃ n x y launch made pending, p.parts[n]? = some x ∧
        y.course = .program launch made pending ∧ q.parts = p.parts.set n y := by
  cases h with
  | finish _ _ _ => exact Or.inl rfl
  | unopened _ _ _ => exact Or.inl rfl
  | opened _ _ _ => exact Or.inl rfl
  | @carriedOut c into _ =>
      have hdone := carriedOut writes p c into
      generalize p.carryOut writes c into = q at hdone ⊢
      cases hdone with
      | part _ _ _ => exact Or.inr (Or.inl ⟨_, rfl⟩)
      | failing => exact Or.inl rfl
  | notified _ => exact Or.inr (Or.inl ⟨_, rfl⟩)
  | written hn _ => exact Or.inr (Or.inr ⟨_, _, _, _, _, _, hn, rfl, rfl⟩)
  | @ends n x _ _ hn hcourse _ =>
      exact Or.inr (Or.inr ⟨n, x, { x with ended := true }, _, _, _, hn, hcourse, rfl⟩)
  | supplied _ => exact Or.inl rfl

theorem length_parts_le_of_step (h : Step writes p q) : p.parts.length ≤ q.parts.length := by
  rcases parts_of_step h with h | ⟨x, h⟩ | ⟨n, x, _, _, _, _, -, -, h⟩ <;> simp [h]

theorem length_parts_le_of_follow (h : p.follow writes schedule = some q) :
    p.parts.length ≤ q.parts.length := by
  refine follow_preserves (P := fun r => p.parts.length ≤ r.parts.length) ?_ h (Nat.le_refl _)
  exact fun _ _ hstep hr => Nat.le_trans hr (length_parts_le_of_step hstep)

/-- A command that has not failed does not fail later. -/
theorem ne_failed_of_follow (h : p.follow writes schedule = some q) {n : Nat} {x : Part}
    (hx : p.parts[n]? = some x) (hne : ∀ fault, x.course ≠ .failed fault) :
    ∃ y, q.parts[n]? = some y ∧ ∀ fault, y.course ≠ .failed fault := by
  refine follow_preserves
    (P := fun r => ∃ y, r.parts[n]? = some y ∧ ∀ fault, y.course ≠ .failed fault) ?_ h ⟨x, hx, hne⟩
  rintro a b hstep ⟨y, hy, hne⟩
  rcases parts_of_step hstep with heq | ⟨z, heq⟩ | ⟨m, z, z', _, _, _, hz, hcourse, heq⟩
  · exact ⟨y, heq ▸ hy, hne⟩
  · refine ⟨y, ?_, hne⟩
    rw [heq, List.getElem?_append_left (List.getElem?_eq_some_iff.mp hy).1, hy]
  · rw [heq]
    by_cases hm : m = n
    · subst hm
      rw [List.getElem?_set_self (List.getElem?_eq_some_iff.mp hz).1]
      exact ⟨z', rfl, by simp [hcourse]⟩
    · rw [List.getElem?_set_ne hm]
      exact ⟨y, hy, hne⟩

/-! ## The commands of a line -/

/-- The command whose target has just been opened. -/
def Phase.command? : Phase → Option Command
  | .opened c _ => some c
  | .failing c _ _ => some c
  | _ => none

/-- The commands of the line: those that have had their turn, the one that is having it, and those
that follow. -/
def commands (p : Play) : List Command :=
  p.parts.map Part.command ++ (p.phase.command?.toList ++ p.left)

theorem left_carryOut (writes : Nat → Launch → List Write) (p : Play) (c : Command)
    (into : Destination) : (p.carryOut writes c into).left = p.left := by
  have hdone := carriedOut writes p c into
  generalize p.carryOut writes c into = q at hdone ⊢
  cases hdone <;> rfl

theorem commands_carryOut (writes : Nat → Launch → List Write) {c : Command} {into : Destination}
    (hp : p.phase = .opened c into) : (p.carryOut writes c into).commands = p.commands := by
  have hdone := carriedOut writes p c into
  generalize p.carryOut writes c into = q at hdone ⊢
  cases hdone with
  | part _ _ hphase =>
      rcases hphase with rfl | ⟨status, rfl, -⟩ <;>
        simp [commands, hp, Phase.command?, Shell.part]
  | failing => simp [commands, hp, Phase.command?]

/-- **Every turn** leaves the commands of the line what they are. -/
theorem commands_of_step (h : Step writes p q) : q.commands = p.commands := by
  cases h with
  | finish hp _ _ => simp [commands, hp, Phase.command?]
  | unopened hp hl _ => simp [commands, hp, hl, Phase.command?]
  | opened hp hl _ => simp [commands, hp, hl, Phase.command?]
  | carriedOut hp => exact commands_carryOut writes hp
  | notified hp => simp [commands, hp, notify, withPart, Phase.command?, Shell.part]
  | @written n x launch made pending w hn hcourse =>
      have hsame := map_set_of_getElem? Part.command hn
        (y := { x with course := .program launch (made ++ [w]) pending }) rfl
      simp only [commands, parts_withWritten, hsame]
      rfl
  | @ends n x launch made hn _ _ =>
      have hsame := map_set_of_getElem? Part.command hn (y := { x with ended := true }) rfl
      simp only [commands, parts_withEnded, hsame]
      rfl
  | supplied _ => rfl

theorem commands_of_follow (h : p.follow writes schedule = some q) : q.commands = p.commands := by
  refine follow_preserves (P := fun r => r.commands = p.commands) ?_ h rfl
  exact fun _ _ hstep hr => (commands_of_step hstep).trans hr

theorem left_suffix_of_step (h : Step writes p q) : q.left <:+ p.left := by
  cases h with
  | finish _ _ _ => exact List.suffix_refl _
  | unopened _ hl _ => exact hl ▸ List.suffix_cons _ _
  | opened _ hl _ => exact hl ▸ List.suffix_cons _ _
  | carriedOut _ => exact left_carryOut writes p _ _ ▸ List.suffix_refl _
  | notified _ => exact List.suffix_refl _
  | written _ _ => exact List.suffix_refl _
  | ends _ _ _ => exact List.suffix_refl _
  | supplied _ => exact List.suffix_refl _

theorem left_suffix_of_follow (h : p.follow writes schedule = some q) : q.left <:+ p.left := by
  refine follow_preserves (P := fun r => r.left <:+ p.left) ?_ h (List.suffix_refl _)
  exact fun _ _ hstep hr => (left_suffix_of_step hstep).trans hr

/-! ## Turns in which the shell gets no further -/

/-- Once the line has ended, the shell has no turn. -/
theorem ne_shell_of_step (h : p.phase = .ended status) (hstep : p.step writes turn = some q) :
    turn ≠ .shell := by
  rintro rfl
  simp only [step, h] at hstep
  cases hstep

/-- Two plays in which the shell has come equally far, and nothing more is told of one than of the
other. -/
structure SameTurn (p q : Play) : Prop where
  phase : q.phase = p.phase
  left : q.left = p.left
  length : q.parts.length = p.parts.length
  events : q.events = p.events
  children : q.children = p.children

theorem SameTurn.refl (p : Play) : SameTurn p p := ⟨rfl, rfl, rfl, rfl, rfl⟩

theorem SameTurn.trans (h : SameTurn p q) (h' : SameTurn q r) : SameTurn p r :=
  ⟨h'.phase.trans h.phase, h'.left.trans h.left, h'.length.trans h.length,
    h'.events.trans h.events, h'.children.trans h.children⟩

theorem sameTurn_of_program {n : Nat} (h : p.step writes (.program n) = some q) :
    SameTurn p q := by
  cases step_program_iff.mp h with
  | written hn hcourse =>
      have hevent := event?_eq_of_program hcourse
      exact ⟨rfl, rfl, by simp, filterMap_set_of_getElem? Part.event? hn (hevent _ _), rfl⟩
  | ends hn _ _ => exact ⟨rfl, rfl, by simp, filterMap_set_of_getElem? Part.event? hn rfl, rfl⟩

/-- When somebody else takes a turn, the shell stays where it is. -/
theorem sameTurn_of_ne_shell (h : p.step writes turn = some q) (hne : turn ≠ .shell) :
    SameTurn p q := by
  cases turn with
  | shell => exact absurd rfl hne
  | program n => exact sameTurn_of_program h
  | system supply =>
      obtain rfl := Option.some.inj h
      exact ⟨rfl, rfl, rfl, rfl, rfl⟩

/-- A line that has ended stays ended. -/
theorem sameTurn_of_ended (h : p.phase = .ended status) (hq : p.follow writes schedule = some q) :
    SameTurn p q := by
  induction schedule generalizing p with
  | nil => exact Option.some.inj hq ▸ .refl p
  | cons turn schedule ih =>
      obtain ⟨r, hstep, hrest⟩ := follow_cons_eq_some_iff.mp hq
      have hsame := sameTurn_of_ne_shell hstep (ne_shell_of_step h hstep)
      exact hsame.trans (ih (hsame.phase.trans h) hrest)

/-! ## The turn of a command -/

/-- A turn in which the next of some commands does not have its target opened leaves all of them. -/
theorem suffix_of_step {c : Command} {ds : List Command} (hstep : p.step writes turn = some q)
    (hl : (c :: ds) <:+ p.left)
    (hother : ¬ (turn = .shell ∧ p.phase = .ready ∧ p.left = c :: ds)) : (c :: ds) <:+ q.left := by
  cases turn with
  | program k => exact (sameTurn_of_program hstep).left ▸ hl
  | system supply => exact Option.some.inj hstep ▸ hl
  | shell =>
      -- the command whose target is opened is another one
      have hnext : ∀ {d : Command} {left : List Command}, p.phase = .ready → p.left = d :: left →
          (c :: ds) <:+ left := by
        intro d left hp hleft
        rw [hleft] at hl
        rcases List.suffix_cons_iff.mp hl with heq | hsuffix
        · exact absurd ⟨rfl, hp, hleft.trans heq.symm⟩ hother
        · exact hsuffix
      cases acted_of_step hstep with
      | finish _ hleft _ =>
          rw [hleft] at hl
          exact absurd (List.eq_nil_of_suffix_nil hl) (by simp)
      | unopened hp hleft _ => exact hnext hp hleft
      | opened hp hleft _ => exact hnext hp hleft
      | carriedOut _ => exact (left_carryOut writes p _ _).symm ▸ hl
      | notified _ => exact hl

/-- As long as a command is left, those before it are parts, or have their turn, or are left. -/
theorem length_parts_of_suffix {c : Command} {cs ds : List Command}
    (hcommands : p.commands = cs ++ c :: ds) (hl : (c :: ds) <:+ p.left) :
    ∃ l, p.left = l ++ c :: ds ∧
      p.parts.length + (p.phase.command?.toList.length + l.length) = cs.length := by
  obtain ⟨l, hl⟩ := hl
  refine ⟨l, hl.symm, ?_⟩
  have hlength := congrArg List.length hcommands
  rw [commands, ← hl] at hlength
  simp only [List.length_append, List.length_map, List.length_cons] at hlength
  omega

/-- **The turn of a command**: if it has had its turn in the end, there was a moment when the shell
opened its target; before, fewer commands had had their turn. -/
theorem exists_turn {c : Command} {cs ds : List Command} (hp : p.follow writes schedule = some q)
    (hcommands : p.commands = cs ++ c :: ds) (hl : (c :: ds) <:+ p.left)
    (hn : cs.length < q.parts.length) :
    ∃ r before after, schedule = before ++ .shell :: after ∧ p.follow writes before = some r ∧
      r.follow writes (.shell :: after) = some q ∧ r.phase = .ready ∧ r.left = c :: ds ∧
      r.parts.length = cs.length ∧
      ∀ x, Acts writes p schedule x → cs.length ≤ x.parts.length →
        Acts writes r (.shell :: after) x := by
  induction schedule generalizing p with
  | nil =>
      obtain rfl := Option.some.inj hp
      obtain ⟨l, -, hlength⟩ := length_parts_of_suffix hcommands hl
      omega
  | cons turn schedule ih =>
      obtain ⟨l, hleft, hlength⟩ := length_parts_of_suffix hcommands hl
      by_cases hthis : turn = .shell ∧ p.phase = .ready ∧ p.left = c :: ds
      · obtain ⟨rfl, hphase, hnext⟩ := hthis
        have hnil : l = [] := List.append_left_eq_self.mp (hleft.symm.trans hnext)
        have hn : p.parts.length = cs.length := by
          simpa [hphase, Phase.command?, hnil] using hlength
        exact ⟨p, [], schedule, rfl, rfl, hp, hphase, hnext, hn, fun x hx _ => hx⟩
      · obtain ⟨r, hstep, hrest⟩ := follow_cons_eq_some_iff.mp hp
        obtain ⟨x, before, after, rfl, hbefore, hx, hphase, hnext, hn, hacts⟩ :=
          ih hrest ((commands_of_step (step_inv hstep)).trans hcommands)
            (suffix_of_step hstep hl hthis)
        refine ⟨x, turn :: before, after, rfl, follow_cons_eq_some_iff.mpr ⟨r, hstep, hbefore⟩, hx,
          hphase, hnext, hn, fun y hy hny => ?_⟩
        cases hy with
        | now =>
            -- all the commands before are parts already, so this would be the turn of the command
            have hnil : l = [] := List.eq_nil_of_length_eq_zero (by omega)
            have hnone : p.phase.command?.toList.length = 0 := by omega
            refine absurd ⟨rfl, ?_, by rw [hleft, hnil, List.nil_append]⟩ hthis
            cases hp : p.phase with
            | ready => rfl
            | opened d into => simp [hp, Phase.command?] at hnone
            | failing d fault into => simp [hp, Phase.command?] at hnone
            | ended status => exact absurd rfl (ne_shell_of_step hp hstep)
        | later hstep' hy =>
            obtain rfl := Option.some.inj (hstep.symm.trans hstep')
            exact hacts y hy hny

/-! ## The turn in which a target is opened -/

/-- **The shell comes to open the target** of the command in some place of the line, in the last of
these plays. -/
structure Opens (writes : Nat → Launch → List Write) (p : Play) (schedule : List Turn) (n : Nat)
    (c : Command) (q : Play) : Prop where
  acts : Acts writes p schedule q
  phase : q.phase = .ready
  next : q.left.head? = some c
  number : q.parts.length = n

variable {n : Nat} {c : Command} {into : Destination}

theorem Opens.append_right (h : Opens writes p schedule n c q) (after : List Turn) :
    Opens writes p (schedule ++ after) n c q :=
  ⟨h.acts.append_right after, h.phase, h.next, h.number⟩

/-- The command in a place of the line has its target opened when as many have had their turn. -/
theorem Opens.getElem?_commands (h : Opens writes p schedule n c q) :
    p.commands[n]? = some c := by
  obtain ⟨before, hbefore⟩ := follow_of_acts h.acts
  obtain ⟨left, hl⟩ := List.head?_eq_some_iff.mp h.next
  rw [← commands_of_follow hbefore, commands, h.phase, hl, ← h.number]
  simp [Phase.command?]

/-- **A target that has just been opened** was opened in an earlier turn, and led to where the
output of the command now goes. -/
theorem exists_opens (hp : p.phase = .ready) (h : p.follow writes schedule = some q)
    (hq : q.phase = .opened c into) : ∃ x s, Opens writes p schedule q.parts.length c x ∧
      x.shell.openTarget c.target = .ok (s, into) := by
  refine follow_induction
    (P := fun schedule q => q.phase = .opened c into → ∃ x s,
      Opens writes p schedule q.parts.length c x ∧ x.shell.openTarget c.target = .ok (s, into))
    (fun hp' => by cases hp.symm.trans hp') ?_ h hq
  intro schedule turn q r hfollow hstep ih hr
  cases turn with
  | program n =>
      have hsame := sameTurn_of_program hstep
      obtain ⟨x, s, hx, ho⟩ := ih (hsame.phase.symm.trans hr)
      exact ⟨x, s, hsame.length ▸ hx.append_right _, ho⟩
  | system supply =>
      obtain rfl := Option.some.inj hstep
      obtain ⟨x, s, hx, ho⟩ := ih hr
      exact ⟨x, s, hx.append_right _, ho⟩
  | shell =>
      cases acted_of_step hstep with
      | finish _ _ _ => cases hr
      | unopened _ _ _ => cases hr
      | opened hphase hl ho =>
          obtain ⟨rfl, rfl⟩ := Phase.opened.inj hr
          have hacts : Acts writes p (schedule ++ [.shell]) q := acts_append hfollow (.now q [])
          exact ⟨q, _, ⟨hacts, hphase, by rw [hl, List.head?_cons], rfl⟩, ho⟩
      | @carriedOut d i _ =>
          have hdone := carriedOut writes q d i
          generalize q.carryOut writes d i = y at hdone hr
          cases hdone with
          | part _ _ hnext => rcases hnext with rfl | ⟨st, rfl, -⟩ <;> cases hr
          | failing => cases hr
      | notified _ => cases hr

/-! ## Writes of programs that are not started -/

/-- What a turn comes to depends on no other writes than those of the programs that are there. -/
theorem step_of_writes_eq {writes' : Nat → Launch → List Write}
    (h : p.step writes turn = some q) (hw : ∀ k < q.parts.length, writes' k = writes k) :
    p.step writes' turn = some q := by
  cases turn with
  | program k => exact h
  | system supply => exact h
  | shell =>
      cases hp : p.phase with
      | ready => simpa only [Play.step, hp] using h
      | failing c fault into => simpa only [Play.step, hp] using h
      | ended status => simpa only [Play.step, hp] using h
      | opened c into =>
          simp only [Play.step, hp] at h ⊢
          obtain rfl := Option.some.inj h
          cases hc : p.shell.carryOut c into with
          | error fault => simp only [Play.carryOut, hc]
          | ok x =>
              obtain ⟨s, action⟩ := x
              cases action with
              | done => simp only [Play.carryOut, hc]
              | exit => simp only [Play.carryOut, hc]
              | started launch =>
                  rw [carryOut_of_started hc] at hw
                  rw [carryOut_of_started hc, carryOut_of_started hc,
                    hw p.parts.length (by simp [Play.withPart, withChild])]

theorem follow_of_writes_eq {writes' : Nat → Launch → List Write}
    (h : p.follow writes schedule = some q) (hw : ∀ k < q.parts.length, writes' k = writes k) :
    p.follow writes' schedule = some q := by
  induction schedule generalizing p with
  | nil => exact h
  | cons turn schedule ih =>
      obtain ⟨r, hstep, h⟩ := follow_cons_eq_some_iff.mp h
      have hle := length_parts_le_of_follow h
      exact follow_cons_eq_some_iff.mpr
        ⟨r, step_of_writes_eq hstep fun k hk => hw k (by omega), ih h⟩

/-! ## Other commands that follow -/

/-- The play with other commands to follow. -/
def withLeft (p : Play) (cs : List Command) : Play := { p with left := cs }

theorem carryOut_withLeft (writes : Nat → Launch → List Write) (p : Play) (c : Command)
    (into : Destination) (cs : List Command) :
    (p.withLeft cs).carryOut writes c into = (p.carryOut writes c into).withLeft cs := by
  simp only [carryOut, withLeft]
  split <;> try rfl
  split <;> rfl

/-- A shell that is ready looks at the next command only. -/
theorem step_withLeft_of_ready {l ds : List Command} (h : p.step writes .shell = some q)
    (hp : p.phase = .ready) (hl : p.left = l ++ ds) (hds : ds ≠ [] ∨ q.phase ≠ .ended .continues)
    (hq : ds <:+ q.left) : ∃ l', q.left = l' ++ ds ∧
      ∀ ds', (p.withLeft (l ++ ds')).step writes .shell = some (q.withLeft (l' ++ ds')) := by
  simp only [step, hp, open?] at h
  cases l with
  | nil =>
      rw [List.nil_append] at hl
      cases ds with
      | nil =>
          simp only [hl] at h
          split at h
          · exact absurd (Option.some.inj h ▸ rfl) (hds.resolve_left (by simp))
          · cases h
      | cons d rest =>
          -- the first of `ds` has its turn, so not all of `ds` is left
          have hrest : q.left = rest := by
            simp only [hl] at h
            split at h <;> exact Option.some.inj h ▸ rfl
          have := hq.length_le
          rw [hrest, List.length_cons] at this
          omega
  | cons c l =>
      rw [List.cons_append] at hl
      simp only [hl] at h
      split at h <;> rename_i ho <;> obtain rfl := Option.some.inj h
      · exact ⟨l, rfl, fun ds' => by simp only [step, withLeft, hp, open?, List.cons_append, ho]⟩
      · exact ⟨l, rfl, fun ds' => by simp only [step, withLeft, hp, open?, List.cons_append, ho]⟩

/-- **A turn does not look at the commands behind those that it comes to**, unless it ends the line
because there are none. -/
theorem step_withLeft {l ds : List Command} (h : p.step writes turn = some q)
    (hl : p.left = l ++ ds) (hds : ds ≠ [] ∨ q.phase ≠ .ended .continues) (hq : ds <:+ q.left) :
    ∃ l', q.left = l' ++ ds ∧ ∀ ds', (p.withLeft (l ++ ds')).step writes turn =
      some (q.withLeft (l' ++ ds')) := by
  cases turn with
  | program n =>
      cases step_program_iff.mp h with
      | written hn hcourse =>
          exact ⟨l, hl, fun ds' => step_program_iff.mpr (.written hn hcourse)⟩
      | ends hn hcourse hended =>
          exact ⟨l, hl, fun ds' => step_program_iff.mpr (.ends hn hcourse hended)⟩
  | system supply => exact ⟨l, Option.some.inj h ▸ hl, fun ds' => Option.some.inj h ▸ rfl⟩
  | shell =>
      cases hp : p.phase with
      | ready => exact step_withLeft_of_ready h hp hl hds hq
      | opened c into =>
          simp only [step, hp] at h
          obtain rfl := Option.some.inj h
          refine ⟨l, (left_carryOut writes p c into).trans hl, fun ds' => ?_⟩
          have hphase : (p.withLeft (l ++ ds')).phase = .opened c into := hp
          simp only [step, hphase, carryOut_withLeft]
      | failing c fault into =>
          simp only [step, hp] at h
          obtain rfl := Option.some.inj h
          refine ⟨l, hl, fun ds' => ?_⟩
          have hphase : (p.withLeft (l ++ ds')).phase = .failing c fault into := hp
          simp only [step, hphase]
          rfl
      | ended st =>
          simp only [step, hp] at h
          cases h

/-- **A schedule can be followed with other commands** behind those that are reached. -/
theorem follow_withLeft {l ds : List Command} (h : p.follow writes schedule = some q)
    (hl : p.left = l ++ ds) (hds : ds ≠ [] ∨ q.phase ≠ .ended .continues) (hq : ds <:+ q.left) :
    ∃ l', q.left = l' ++ ds ∧ ∀ ds', (p.withLeft (l ++ ds')).follow writes schedule =
      some (q.withLeft (l' ++ ds')) := by
  induction schedule generalizing p l with
  | nil =>
      obtain rfl := Option.some.inj h
      exact ⟨l, hl, fun _ => rfl⟩
  | cons turn schedule ih =>
      obtain ⟨r, hstep, h⟩ := follow_cons_eq_some_iff.mp h
      have hr : ds <:+ r.left := hq.trans (left_suffix_of_follow h)
      have hend : ds ≠ [] ∨ r.phase ≠ .ended .continues :=
        hds.imp_right fun hne hcont => hne ((sameTurn_of_ended hcont h).phase.trans hcont)
      obtain ⟨l₁, hl₁, hstep'⟩ := step_withLeft hstep hl hend hr
      obtain ⟨l₂, hl₂, hfollow⟩ := ih h hl₁
      exact ⟨l₂, hl₂, fun ds' => follow_cons_eq_some_iff.mpr ⟨_, hstep' ds', hfollow ds'⟩⟩

end Play

end ParallelShell
