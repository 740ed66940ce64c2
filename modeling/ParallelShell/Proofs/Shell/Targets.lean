import ParallelShell.Proofs.FileTree.Put
import ParallelShell.Proofs.Shell.Play

set_option autoImplicit false

/-! # Where targets lead

A target is opened as it was typed, from the directory that the shell is in at that moment. From
then on it leads to what was opened (`leads_of_openTarget`), and nothing that happens in a play
changes this (`leads_of_step`): files are created and written, but none goes away, and no directory
and no link changes.
-/

namespace ParallelShell

def Found.destination? : Found → Option Destination
  | .file loc _ _ => some (.file loc)
  | .device _ d => some (.device d)
  | _ => none

/-- Whether a target leads to a destination, from a directory. -/
def FileTree.Leads (t : FileTree) (directory : Location) (path : Text) (into : Destination) :
    Prop :=
  ∃ found, t.locate true directory path = .ok found ∧ found.destination? = some into

variable {directory : Location} {path : Text} {into : Destination}

namespace FileTree

variable {t : FileTree} {loc : Location}

theorem Leads.put (h : t.Leads directory path into) (mode : Mode) (content : Content)
    (hloc : loc ≠ []) (hnode : t.node? loc = none ∨ ∃ old c, t.node? loc = some (.file old c)) :
    (t.put loc (.file mode content)).Leads directory path into := by
  obtain ⟨found, hl, hd⟩ := h
  rcases locate_put mode content hloc hnode true directory path with
    ⟨cause, he, -⟩ | ⟨r, r', hput, hr, hr'⟩
  · cases he.symm.trans hl
  · rw [hr] at hl
    cases hput with
    | same => exact ⟨found, hr'.trans hl, hd⟩
    | free =>
        -- a free place is no destination
        cases hl
        cases hd
    | replaced =>
        cases hl
        exact ⟨_, hr', hd⟩
    | blocked => cases hl

theorem Leads.writeAt (h : t.Leads directory path into) (loc : Location) (offset : Nat)
    (data : Octets) : (t.writeAt loc offset data).Leads directory path into := by
  unfold FileTree.writeAt
  split
  · rename_i hn
    exact h.put _ _ (ne_nil_of_node?_file hn) (Or.inr ⟨_, _, hn⟩)
  · exact h

/-- What a target leads to is the file that stands there. -/
theorem Leads.locate_eq (h : t.Leads directory path (.file loc)) {mode : Mode} {content : Content}
    (hn : t.node? loc = some (.file mode content)) :
    t.locate true directory path = .ok (.file loc mode content) := by
  obtain ⟨found, hl, hd⟩ := h
  have hstands := stands_of_locate hl
  cases found with
  | file other m c =>
      obtain rfl := Destination.file.inj (Option.some.inj hd)
      have hsame : some (Node.file m c) = some (.file mode content) := hstands.symm.trans hn
      obtain ⟨rfl, rfl⟩ := Node.file.inj (Option.some.inj hsame)
      exact hl
  | device other d => cases Option.some.inj hd
  | directory other => cases hd
  | absent dir name => cases hd

end FileTree

/-- A target leads to the file that has been put in its place. -/
theorem System.leads_of_targetFile? {s : System} {loc : Location}
    (h : s.targetFile? path = some loc) (mode : Mode) (content : Content) :
    (s.tree.put loc (.file mode content)).Leads s.directory path (.file loc) := by
  obtain ⟨hloc, hnode⟩ := node?_of_targetFile? h
  unfold targetFile? at h
  split at h
  · rename_i hl
    obtain rfl := Option.some.inj h
    exact FileTree.Leads.put ⟨_, hl, rfl⟩ mode content hloc hnode
  · rename_i dir name hl
    obtain rfl := Option.some.inj h
    rcases FileTree.locate_put mode content hloc hnode true s.directory path with
      ⟨cause, he, -⟩ | ⟨r, r', hput, hr, hr'⟩
    · cases he.symm.trans hl
    · rw [hr] at hl
      cases hput with
      | same _ hfree =>
          -- the walk cannot have ended elsewhere
          cases r with
          | error e => cases hl
          | ok found => exact absurd (congrArg Except.ok (Except.ok.inj hl)) (hfree dir name rfl)
      | free => exact ⟨_, hr', rfl⟩
      | replaced => cases hl
      | blocked => cases hl
  · cases h

namespace Shell

variable {s s' : Shell}

/-- **A target leads to what was opened.** -/
theorem leads_of_openTarget (h : s.openTarget (some path) = .ok (s', into)) :
    s'.system.tree.Leads s.system.directory path into := by
  rcases openTarget_eq_ok h with ⟨ht, -⟩ | ⟨p, loc, device, ht, hl, rfl, rfl⟩ |
    ⟨p, loc, mode, ht, hf, rfl, rfl⟩
  · cases ht
  · obtain rfl := Option.some.inj ht
    exact ⟨_, hl, rfl⟩
  · obtain rfl := Option.some.inj ht
    exact System.leads_of_targetFile? hf _ _

end Shell

namespace FileTree

theorem Leads.openTarget {s s' : Shell} {target : Option Text} {other : Destination}
    (hl : s.system.tree.Leads directory path into) (h : s.openTarget target = .ok (s', other)) :
    s'.system.tree.Leads directory path into := by
  rcases Shell.openTarget_eq_ok h with ⟨-, -, rfl⟩ | ⟨_, _, _, -, -, -, rfl⟩ |
    ⟨_, loc, mode, -, hf, -, rfl⟩
  · exact hl
  · exact hl
  · obtain ⟨hloc, hnode⟩ := System.node?_of_targetFile? hf
    exact hl.put _ _ hloc hnode

theorem Leads.write {s : Scene} (hl : s.tree.Leads directory path into) (other : Destination)
    (offset : Nat) (w : Write) : (s.write other offset w).tree.Leads directory path into := by
  cases other with
  | inherited => exact hl
  | device d => exact hl
  | file loc => exact hl.writeAt loc offset w.data

end FileTree

/-- **Every turn** leaves a target leading to where it led. -/
theorem Play.leads_of_step {writes : Nat → Launch → List Write} {p q : Play} (h : Step writes p q)
    (hl : p.shell.system.tree.Leads directory path into) :
    q.shell.system.tree.Leads directory path into := by
  cases h with
  | finish _ _ _ => exact hl
  | unopened _ _ _ => exact hl
  | opened _ _ ho => exact hl.openTarget ho
  | @carriedOut c i _ =>
      have hdone := Play.carriedOut writes p c i
      generalize p.carryOut writes c i = q at hdone ⊢
      cases hdone with
      | part htree _ _ => exact htree ▸ hl
      | failing => exact hl
  | @notified c fault i _ =>
      rw [notify_eq]
      exact FileTree.Leads.write (s := p.scene) hl i 0 Part.notice
  | @written n x launch made pending w _ _ =>
      exact FileTree.Leads.write (s := p.scene) hl x.into _ w
  | ends _ _ _ => exact hl
  | supplied _ => exact hl

end ParallelShell
