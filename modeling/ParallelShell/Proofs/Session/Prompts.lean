import ParallelShell.Proofs.Completion.Names
import ParallelShell.Proofs.Completion.Offers
import ParallelShell.Proofs.Input.Typed
import ParallelShell.Proofs.SearchPath.Spelling
import ParallelShell.Proofs.Session.Avoidance
import ParallelShell.Session
import Mathlib.Logic.Relation

set_option autoImplicit false

/-! # Completion at the prompts of a session

A session on a terminal goes from prompt to prompt: a line is read, and run, and if the session
goes on, the next line is read. A `Prompt` is what there is when a line is about to be read, and
`Prompt.next?` gives the one after it. These are the prompts that `Session.runLines` goes through
(`Prompt.runLines_of_next?`, `Prompt.runLines_of_next?_eq_none`).

The completer is brought up to date before each line, but only the search path is looked at. So a
completer belongs to an earlier prompt, the one at which the search path has last become another
one (`Prompt.Since`), and it knows the names that were to be had there
(`Prompt.completer_of_since`). As long as no entry and no mode changes, this makes no difference,
save for two things (`Prompt.complete_of_reached`):

* A relative path leads elsewhere from another directory. After `cd`, the names that are offered
  are still those from the directory before (`Prompt.not_forall_complete_eq`).
* The search path may have been written in another way since, and one of the two ways may be too
  long to be used.

The line editor may be any. The completer is not its own: it is handed one for each line.
-/

namespace ParallelShell

/-- A session on a terminal when a line is about to be read. -/
structure Prompt (E : LineEditor) where
  terminal : Terminal E
  /-- The keys that will be pressed for this line and for each one after it. -/
  typed : List (List Char)
  session : Session

namespace Completer

/-- Completers that are built where the same names are to be had offer the same. -/
theorem complete_build_congr {s r : SearchPath} {t u : FileTree} {d e : Location}
    (h : ∀ name, name ∈ s.names t d ↔ name ∈ r.names u e) (line : Text) (cursor : Nat) :
    (build s t d).complete line cursor = (build r u e).complete line cursor := by
  refine complete_congr (fun name => ?_) line cursor
  rw [build, build, List.mem_append, List.mem_append, h]

end Completer

namespace Prompt

variable {E : LineEditor}

/-- The first prompt of a session. -/
def first (s : Session) (typed : List (List Char)) : Prompt E where
  terminal := .build s.shell.searchPath s.shell.system.tree s.shell.system.directory
  typed := typed
  session := s

def source (p : Prompt E) : Source E := .terminal p.terminal p.typed

def searchPath (p : Prompt E) : SearchPath := p.session.shell.searchPath

def tree (p : Prompt E) : FileTree := p.session.shell.system.tree

def directory (p : Prompt E) : Location := p.session.shell.system.directory

/-- The completer with which the line is typed. -/
def completer (p : Prompt E) : Completer :=
  p.terminal.completer.refresh p.searchPath p.tree p.directory

/-- The prompt after a line has been read and run, if the session goes on. -/
def next? (behaviour : Launch → Activity) (p : Prompt E) : Option (Prompt E) :=
  match p.typed with
  | [] => none
  | keys :: typed =>
    match p.terminal.readLine p.searchPath p.tree p.directory keys with
    | (none, _) => none
    | (some line, terminal) =>
      let (session, run) := p.session.runLine behaviour line
      match run.status with
      | .continues => some { terminal, typed, session }
      | _ => none

def Reached (behaviour : Launch → Activity) : Prompt E → Prompt E → Prop :=
  Relation.ReflTransGen fun p q => p.next? behaviour = some q

/-- **Where a search path comes from.** `Since behaviour p₀ q p` says that the search path at `p`
has become what it is at the prompt `q`, on the way from `p₀`. -/
inductive Since (behaviour : Launch → Activity) (p₀ : Prompt E) : Prompt E → Prompt E → Prop
  | start : Since behaviour p₀ p₀ p₀
  | kept {q p p' : Prompt E} :
      Since behaviour p₀ q p → p.next? behaviour = some p' →
        p.searchPath.same p'.searchPath = true → Since behaviour p₀ q p'
  | changed {q p p' : Prompt E} :
      Since behaviour p₀ q p → p.next? behaviour = some p' →
        p.searchPath.same p'.searchPath = false → Since behaviour p₀ p' p'

variable {behaviour : Launch → Activity} {p₀ p q : Prompt E}

/-! ## The prompts of a session -/

theorem source_first (s : Session) (typed : List (List Char)) :
    s.source E (some typed) none = .ok (first s typed).source := rfl

/-- What there is between a prompt and the next one. -/
theorem next?_eq_some (h : p.next? behaviour = some q) :
    ∃ keys typed line terminal session run, p.typed = keys :: typed ∧
      p.terminal.readLine p.searchPath p.tree p.directory keys = (some line, terminal) ∧
        p.session.runLine behaviour line = (session, run) ∧ run.status = .continues ∧
          q = { terminal, typed, session } := by
  unfold next? at h
  split at h
  · cases h
  · rename_i keys typed htyped
    split at h
    · cases h
    · rename_i line terminal hread
      simp only at h
      split at h
      · rename_i hstatus
        exact ⟨keys, typed, line, terminal, _, _, htyped, hread, rfl, hstatus,
          (Option.some.inj h).symm⟩
      · cases h

/-- A session that goes on goes on at the next prompt. -/
theorem runLines_of_next? (h : p.next? behaviour = some q) (lines : Nat) :
    Session.runLines behaviour (lines + 1) p.source p.session =
      Session.runLines behaviour lines q.source q.session := by
  obtain ⟨keys, typed, line, terminal, session, run, htyped, hread, hrun, hstatus, rfl⟩ :=
    next?_eq_some h
  unfold searchPath tree directory at hread
  simp only [Session.runLines, source, Session.read, htyped, hread, hrun, hstatus]

/-- If there is no next prompt, nothing is read after this one. -/
theorem runLines_of_next?_eq_none (h : p.next? behaviour = none) (lines : Nat) :
    Session.runLines behaviour (lines + 1) p.source p.session =
      Session.runLines behaviour 1 p.source p.session := by
  cases htyped : p.typed with
  | nil => simp only [Session.runLines, source, Session.read, htyped]
  | cons keys typed =>
      cases hread : p.terminal.readLine p.searchPath p.tree p.directory keys with
      | mk line? terminal =>
          have hread' := hread
          unfold searchPath tree directory at hread'
          cases line? with
          | none => simp only [Session.runLines, source, Session.read, htyped, hread']
          | some line =>
              simp only [Session.runLines, source, Session.read, htyped, hread']
              cases hstatus : (p.session.runLine behaviour line).2.status with
              | continues => simp only [next?, htyped, hread, hstatus, reduceCtorEq] at h
              | exits => rfl
              | fails fault => rfl

/-- What is seen of directories, apart from their entries, never changes. -/
theorem sight_of_next? (h : p.next? behaviour = some q) : q.tree.sight = p.tree.sight := by
  obtain ⟨keys, typed, line, terminal, session, run, -, -, hrun, -, rfl⟩ := next?_eq_some h
  have hground := Session.sameGround_runLine behaviour p.session line
  rw [hrun] at hground
  exact hground.sight

theorem sight_of_since {s : Session} {typed : List (List Char)} {p q : Prompt E}
    (h : Since behaviour (first s typed) q p) : q.tree.sight = p.tree.sight := by
  induction h with
  | start => rfl
  | kept _ hnext _ ih => exact ih.trans (sight_of_next? hnext).symm
  | changed _ _ _ _ => rfl

/-! ## Where the completer comes from -/

/-- The terminal keeps the completer with which the line was typed. -/
theorem completer_of_next? (h : p.next? behaviour = some q) :
    q.terminal.completer = p.completer := by
  obtain ⟨keys, typed, line, terminal, session, run, -, hread, -, -, rfl⟩ := next?_eq_some h
  have hkept := p.terminal.completer_readLine p.searchPath p.tree p.directory keys
  rwa [hread] at hkept

/-- While the search path stays the same, the completer stays as it is. -/
theorem completer_of_next?_of_same (h : p.next? behaviour = some q)
    (hsame : p.completer.searchPath.same q.searchPath = true) : q.completer = p.completer := by
  rw [completer, completer_of_next? h]
  exact if_pos hsame

/-- Once the search path has become another one, the completer is a new one. -/
theorem completer_of_next?_of_not_same (h : p.next? behaviour = some q)
    (hsame : ¬ p.completer.searchPath.same q.searchPath = true) :
    q.completer = Completer.build q.searchPath q.tree q.directory := by
  rw [completer, completer_of_next? h]
  exact if_neg hsame

/-- On the way to any prompt, the search path has become what it is somewhere. -/
theorem exists_since (h : Reached behaviour p₀ p) : ∃ q, Since behaviour p₀ q p := by
  induction h with
  | refl => exact ⟨p₀, .start⟩
  | @tail p p' _ hnext ih =>
      obtain ⟨q, hq⟩ := ih
      cases hsame : p.searchPath.same p'.searchPath with
      | true => exact ⟨q, .kept hq hnext hsame⟩
      | false => exact ⟨p', .changed hq hnext hsame⟩

/-- **The completer is the one that was built when the search path became what it is.** The
induction is on the prompts since the first. What carries it is that the search path of the
completer is the same as that of the shell, though it may be written in another way. -/
theorem completer_of_since {s : Session} {typed : List (List Char)} {p q : Prompt E}
    (h : Since behaviour (first s typed) q p) :
    p.completer = Completer.build q.searchPath q.tree q.directory ∧
      q.searchPath.same p.searchPath = true := by
  induction h with
  | start =>
      have hsame := SearchPath.same_refl s.shell.searchPath
      exact ⟨if_pos hsame, hsame⟩
  | @kept q p p' _ hnext hsame ih =>
      obtain ⟨hcompleter, hq⟩ := ih
      have hq' := SearchPath.same_trans hq hsame
      have hkept : p'.completer = p.completer := by
        refine completer_of_next?_of_same hnext ?_
        rw [hcompleter]
        exact hq'
      exact ⟨hkept.trans hcompleter, hq'⟩
  | @changed q p p' _ hnext hsame ih =>
      obtain ⟨hcompleter, hq⟩ := ih
      have hq' : ¬ q.searchPath.same p'.searchPath = true := by
        intro hq'
        have hpp' := SearchPath.same_trans (SearchPath.same_symm hq) hq'
        rw [hsame] at hpp'
        cases hpp'
      have hbuilt : p'.completer = Completer.build p'.searchPath p'.tree p'.directory := by
        refine completer_of_next?_of_not_same hnext ?_
        rw [hcompleter]
        exact hq'
      exact ⟨hbuilt, SearchPath.same_refl _⟩

/-- **What is offered at a prompt.** At every prompt `p` of a session, the search path has become
what it is at some prompt `q`. If no entry and no mode has changed since, what is offered at `p` is
what a completer would offer that is newly built for the search path, as it was written at `q`, in
the directory of `q`. As long as paths can be used, how the search path is written makes no
difference; and if in addition the directory is still the one of `q`, or all paths are absolute,
what is offered is what a completer would offer that is newly built at `p`. -/
theorem complete_of_reached {E : LineEditor} {behaviour : Launch → Activity} {s : Session}
    {typed : List (List Char)} {p : Prompt E} (h : Reached behaviour (first s typed) p) :
    (∃ q, Since behaviour (first s typed) q p) ∧
      ∀ q, Since behaviour (first s typed) q p → q.tree.SameBut (fun _ => True) p.tree →
        ∀ line cursor,
          p.completer.complete line cursor =
              (Completer.build q.searchPath p.tree q.directory).complete line cursor ∧
            (q.searchPath = p.searchPath ∨ q.searchPath.Fits p.tree ∧ p.searchPath.Fits p.tree →
              p.completer.complete line cursor =
                  (Completer.build p.searchPath p.tree q.directory).complete line cursor ∧
                (q.directory = p.directory ∨ p.searchPath.IsAbsolute →
                  p.completer.complete line cursor =
                    (Completer.build p.searchPath p.tree p.directory).complete line cursor)) := by
  refine ⟨exists_since h, ?_⟩
  intro q hq htree line cursor
  obtain ⟨hcompleter, hsame⟩ := completer_of_since hq
  have hthen : p.completer.complete line cursor =
      (Completer.build q.searchPath p.tree q.directory).complete line cursor := by
    rw [hcompleter]
    exact Completer.complete_build_congr
      (SearchPath.mem_names_iff_of_sameBut htree (sight_of_since hq) q.searchPath q.directory)
      line cursor
  refine ⟨hthen, fun hspelling => ?_⟩
  have hthere : (Completer.build q.searchPath p.tree q.directory).complete line cursor =
      (Completer.build p.searchPath p.tree q.directory).complete line cursor := by
    rcases hspelling with heq | ⟨hfits, hfits'⟩
    · rw [heq]
    · exact Completer.complete_build_congr
        (SearchPath.mem_names_iff_of_same hsame hfits hfits' q.directory) line cursor
  refine ⟨hthen.trans hthere, fun hdirectory => ?_⟩
  have hhere : (Completer.build p.searchPath p.tree q.directory).complete line cursor =
      (Completer.build p.searchPath p.tree p.directory).complete line cursor := by
    rcases hdirectory with heq | habs
    · rw [heq]
    · exact Completer.complete_build_congr
        (SearchPath.mem_names_iff_of_isAbsolute habs p.tree q.directory p.directory) line cursor
  calc p.completer.complete line cursor
      = (Completer.build q.searchPath p.tree q.directory).complete line cursor := hthen
    _ = (Completer.build p.searchPath p.tree q.directory).complete line cursor := hthere
    _ = (Completer.build p.searchPath p.tree p.directory).complete line cursor := hhere

/-! ## A session that goes to another directory -/

/-- A system with two directories `bin`, one of them in `sub`, and a program in each. -/
def twoBins : System where
  tree := FileTree.empty
    |>.put [text "bin"] .directory
    |>.put [text "tool-a", text "bin"] (.file Mode.new .program)
    |>.put [text "sub"] .directory
    |>.put [text "bin", text "sub"] .directory
    |>.put [text "tool-b", text "bin", text "sub"] (.file Mode.new .program)
  directory := []
  running := []
  supply := .available
  programPath := []

def inBin : SearchPath := { directories := [text "bin"] }

def toSub : Prompt .keyByKey :=
  first (.fresh twoBins (.ofInput [])) [text "path bin\r", text "cd sub\r"]

def view (p : Prompt E) : SearchPath × Location × List (Location × Node) :=
  (p.searchPath, p.directory, p.tree.entries)

theorem of_view_eq {s : SearchPath} {d : Location} {t : FileTree}
    (h : p.view = (s, d, t.entries)) (hsight : p.tree.sight = t.sight) :
    p.searchPath = s ∧ p.directory = d ∧ p.tree = t := by
  obtain ⟨hpath, hdirectory, hentries⟩ := by simpa only [view, Prod.mk.injEq] using h
  refine ⟨hpath, hdirectory, ?_⟩
  generalize p.tree = u at hentries hsight
  cases u
  cases t
  cases hentries
  cases hsight
  rfl

/-- The session has two more prompts: one in the first directory, and one in `sub`. -/
theorem exists_next_toSub : ∃ p q, toSub.next? (fun _ => .idle) = some p ∧
    p.next? (fun _ => .idle) = some q ∧ q.next? (fun _ => .idle) = none ∧
      (p.searchPath = inBin ∧ p.directory = [] ∧ p.tree = twoBins.tree) ∧
        q.searchPath = inBin ∧ q.directory = [text "sub"] ∧ q.tree = twoBins.tree := by
  have hp : (toSub.next? fun _ => .idle).map view = some (inBin, [], twoBins.tree.entries) := by
    decide +kernel
  have hq : ((toSub.next? fun _ => .idle).bind (next? fun _ => .idle)).map view =
      some (inBin, [text "sub"], twoBins.tree.entries) := by
    decide +kernel
  have hend : (((toSub.next? fun _ => .idle).bind (next? fun _ => .idle)).bind
      (next? fun _ => .idle)).isNone = true := by
    decide +kernel
  obtain ⟨p, hp, hview⟩ := Option.map_eq_some_iff.mp hp
  rw [hp, Option.bind_some] at hq hend
  obtain ⟨q, hq, hview'⟩ := Option.map_eq_some_iff.mp hq
  rw [hq, Option.bind_some, Option.isNone_iff_eq_none] at hend
  have hsight := sight_of_next? hp
  exact ⟨p, q, hp, hq, hend, of_view_eq hview hsight,
    of_view_eq hview' ((sight_of_next? hq).trans hsight)⟩

theorem exists_since_toSub : ∃ p q, Since (fun _ => .idle) toSub p p ∧
    Since (fun _ => .idle) toSub p q ∧
      (∀ r, Reached (fun _ => .idle) toSub r ↔ r = toSub ∨ r = p ∨ r = q) ∧
        (p.searchPath = inBin ∧ p.directory = [] ∧ p.tree = twoBins.tree) ∧
          q.searchPath = inBin ∧ q.directory = [text "sub"] ∧ q.tree = twoBins.tree := by
  obtain ⟨p, q, hp, hq, hend, ⟨hpath, hp'⟩, hpath', hq'⟩ := exists_next_toSub
  have hsince : Since (fun _ => .idle) toSub p p := by
    refine .changed .start hp ?_
    rw [hpath]
    decide
  have hsince' : Since (fun _ => .idle) toSub p q := by
    refine .kept hsince hq ?_
    rw [hpath, hpath']
    decide
  refine ⟨p, q, hsince, hsince', fun r => ⟨fun h => ?_, ?_⟩, ⟨hpath, hp'⟩, hpath', hq'⟩
  · induction h with
    | refl => exact Or.inl rfl
    | @tail r r' _ hnext ih =>
        rcases ih with rfl | rfl | rfl
        · exact Or.inr (Or.inl (Option.some.inj (hnext.symm.trans hp)))
        · exact Or.inr (Or.inr (Option.some.inj (hnext.symm.trans hq)))
        · rw [hend] at hnext
          cases hnext
  · rintro (rfl | rfl | rfl)
    · exact .refl
    · exact .single hp
    · exact .tail (.single hp) hq

/-- At the prompt after `path bin`, what is offered is what would be offered now. At the one after
`cd sub`, it is still what would be offered in the directory before. -/
theorem complete_toSub : ∃ p q,
    Reached (fun _ => .idle) toSub p ∧ Reached (fun _ => .idle) toSub q ∧
      p.directory = [] ∧ q.directory = [text "sub"] ∧ ∀ line cursor,
      p.completer.complete line cursor =
          (Completer.build p.searchPath p.tree p.directory).complete line cursor ∧
        q.completer.complete line cursor =
          (Completer.build q.searchPath q.tree p.directory).complete line cursor := by
  obtain ⟨p, q, hsince, hsince', hreached, hp, hq⟩ := exists_since_toSub
  obtain ⟨hpath, hdirectory, htree⟩ := hp
  obtain ⟨hpath', hdirectory', htree'⟩ := hq
  have hp : Reached (fun _ => .idle) toSub p := (hreached p).mpr (by simp)
  have hq : Reached (fun _ => .idle) toSub q := (hreached q).mpr (by simp)
  have hsame : p.tree.SameBut (fun _ => True) q.tree := by
    rw [htree, htree']
    exact .refl _ _
  refine ⟨p, q, hp, hq, hdirectory, hdirectory', fun line cursor => ⟨?_, ?_⟩⟩
  · have hat := (complete_of_reached hp).2 p hsince (.refl _ _) line cursor
    exact (hat.2 (Or.inl rfl)).2 (Or.inl rfl)
  · have hat := (complete_of_reached hq).2 p hsince' hsame line cursor
    exact (hat.2 (Or.inl (hpath.trans hpath'.symm))).1

/-- **What is offered may be out of date** although no entry and no mode ever changes: after
`cd sub`, the program in `sub/bin` is not offered. -/
theorem not_forall_complete_eq :
    ¬ ∀ (behaviour : Launch → Activity) (s : Session) (typed : List (List Char))
      (p : Prompt .keyByKey),
      (∀ r : Prompt .keyByKey, Reached behaviour (first s typed) r →
        s.shell.system.tree.SameBut (fun _ => True) r.tree) →
      Reached behaviour (first s typed) p → ∀ line cursor,
        p.completer.complete line cursor =
          (Completer.build p.searchPath p.tree p.directory).complete line cursor := by
  intro h
  obtain ⟨p, q, -, hsince, hreached, hp, hq⟩ := exists_since_toSub
  obtain ⟨hpath, hdirectory, htree⟩ := hp
  obtain ⟨hpath', hdirectory', htree'⟩ := hq
  have hkept : ∀ r, Reached (fun _ => .idle) toSub r →
      twoBins.tree.SameBut (fun _ => True) r.tree := by
    intro r hr
    have hr : r.tree = twoBins.tree := by
      rcases (hreached r).mp hr with rfl | rfl | rfl
      · rfl
      · exact htree
      · exact htree'
    rw [hr]
    exact .refl _ _
  have hsame := h _ _ _ q hkept ((hreached q).mpr (by simp)) (text "too") 3
  rw [(completer_of_since hsince).1, hpath, htree, hdirectory, hpath', htree', hdirectory'] at hsame
  have hoffered : { display := text "tool-b", replacement := text "l-b " } ∈
      ((Completer.build inBin twoBins.tree [text "sub"]).complete (text "too") 3).candidates := by
    rw [Completer.candidates_complete, Completer.mem_candidates]
    exact ⟨by decide, by decide, text "tool-b", by decide, by decide⟩
  rw [← hsame, Completer.candidates_complete, Completer.mem_candidates] at hoffered
  obtain ⟨-, -, name, hname, hx⟩ := hoffered
  obtain ⟨rest, -, -, hx⟩ := (Completer.candidate?_eq_some_iff _ _ _).mp hx
  injection hx with hb _
  rw [← hb] at hname
  exact absurd hname (by decide)

end Prompt

end ParallelShell
