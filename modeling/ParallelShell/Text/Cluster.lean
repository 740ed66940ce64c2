import ParallelShell.Text.Basic
import ParallelShell.Text.ClusterClass

set_option autoImplicit false

/-! # Clusters

A **cluster** is what a reader takes for one letter: a character together with those that stick to
it. Here a text is looked at from its end, where a line is edited, so it is given in reverse:
`Cluster.joins` says whether a character sticks to what is before it, and `Text.dropCluster` takes
the last cluster of a text away.
-/

namespace ParallelShell

namespace Cluster

/-- Whether the last of these characters, given in reverse, is the first half of a flag: of
several halves in a row, every other one is. -/
def opensFlag (before : List Char) : Bool :=
  (before.takeWhile fun c => ClusterClass.of c = .regional).length % 2 = 1

/-- Whether a picture may be bound to these characters, given in reverse: a joiner, and before it
a picture with its marks. -/
def awaitsPictograph : List Char → Bool
  | [] => false
  | c :: before =>
    ClusterClass.of c = .joiner &&
      ((before.dropWhile fun c => ClusterClass.of c = .extend).head?.any fun c =>
        ClusterClass.of c = .pictograph)

/-- Whether a consonant is tied to these characters, given in reverse: marks with a linker
among them, and before those a consonant. -/
def awaitsConsonant (before : List Char) : Bool :=
  (before.takeWhile ClusterClass.isTied).any ClusterClass.isLinker &&
    (before.dropWhile ClusterClass.isTied).head?.any ClusterClass.isConsonant

/-- Whether a character sticks to those before it, which are given in reverse. -/
def joins (before : List Char) (c : Char) : Bool :=
  match before with
  | [] => false
  | p :: _ =>
    match ClusterClass.of p, ClusterClass.of c with
    | .control, _ | _, .control => p = '\r' && c = '\n'
    | _, .extend | _, .joiner | _, .spacing | .prepended, _ => true
    | .regional, .regional => opensFlag before
    | .joiner, .pictograph => awaitsPictograph before
    | k, l => ClusterClass.isSyllable k l || (ClusterClass.isConsonant c && awaitsConsonant before)

def drop : List Char → List Char
  | [] => []
  | c :: before => if joins before c then drop before else before

end Cluster

namespace Text

def dropCluster (t : Text) : Text := (Cluster.drop t.reverse).reverse

@[simp]
theorem dropCluster_nil : dropCluster [] = [] := rfl

end Text

end ParallelShell
