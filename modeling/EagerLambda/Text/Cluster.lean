import EagerLambda.Text.Cluster.Class

/-!
# Clusters

A cluster is what the reader of a text sees as a single character: a letter with
its marks, a flag, a syllable of Hangul, a family of joined pictographs. A text
is cut between two characters unless one of the rules of `Preceding.joins` keeps
them together. The rules look back at most over one cluster, so it is enough to
remember how the text ends so far.

`flatten_clusters` says that cutting loses nothing.
-/

namespace EagerLambda

namespace ClusterClass

/-- Controls stand alone, but for a line feed after a carriage return. -/
def isControl : ClusterClass → Bool
  | carriageReturn | lineFeed | control => true
  | _ => false

/-- The marks that join any character before them. -/
def isExtending : ClusterClass → Bool
  | extend | linker | nonJoiner => true
  | _ => false

/-- Whether two parts of Hangul syllables belong to one syllable. -/
def formSyllable : ClusterClass → ClusterClass → Bool
  | leadingJamo, leadingJamo | leadingJamo, vowelJamo => true
  | leadingJamo, openSyllable | leadingJamo, closedSyllable => true
  | openSyllable, vowelJamo | openSyllable, trailingJamo => true
  | vowelJamo, vowelJamo | vowelJamo, trailingJamo => true
  | closedSyllable, trailingJamo | trailingJamo, trailingJamo => true
  | _, _ => false

end ClusterClass

/-- How a text ends, as far as it matters for what comes next. -/
structure Preceding where
  last : ClusterClass
  /-- The text ends in an odd number of halves of flags. -/
  halfFlag : Bool := false
  /-- The text ends in a pictograph and extending marks. -/
  pictograph : Bool := false
  /-- The text ends in a pictograph, extending marks and a joiner. -/
  joined : Bool := false
  /-- The text ends in a consonant and marks that do not keep it apart. -/
  consonant : Bool := false
  /-- One of the marks after that consonant is a linker. -/
  linked : Bool := false
  deriving DecidableEq, Repr

namespace Preceding

/-- How a text ends that starts with a character of class `k`. -/
def first (k : ClusterClass) : Preceding :=
  { last := k
    halfFlag := k = .regional
    pictograph := k = .pictograph
    consonant := k = .consonant }

/-- How a text ends after one more character of class `k`. -/
def push (p : Preceding) (k : ClusterClass) : Preceding :=
  { last := k
    halfFlag := k = .regional && !p.halfFlag
    pictograph := k = .pictograph || p.pictograph && k.isExtending
    joined := p.pictograph && k = .joiner
    consonant := k = .consonant ||
      p.consonant && (k = .linker || k = .extend || k = .joiner)
    linked := p.consonant && k = .linker || p.linked && (k = .extend || k = .joiner) }

/-- Whether a character of class `k` belongs to the cluster before it. -/
def joins (p : Preceding) (k : ClusterClass) : Bool :=
  if p.last = .carriageReturn ∧ k = .lineFeed then true
  else if p.last.isControl || k.isControl then false
  else
    p.last.formSyllable k
      || k.isExtending || k = .joiner || k = .spacingMark
      || p.last = .prepended
      || p.linked && k = .consonant
      || p.joined && k = .pictograph
      || p.halfFlag && k = .regional

end Preceding

/-- Cuts what is left of a text, of which `cluster`, the latest first, is the
cluster that the next character may join, and `done` are those before it, the
latest first. -/
def clustersFrom (p : Preceding) (cluster : List Char) (done : List (List Char)) :
    List Char → List (List Char)
  | [] => (cluster.reverse :: done).reverse
  | c :: s =>
    let k := ClusterClass.of c
    if p.joins k then clustersFrom (p.push k) (c :: cluster) done s
    else clustersFrom (p.push k) [c] (cluster.reverse :: done) s

def clusters : List Char → List (List Char)
  | [] => []
  | c :: s => clustersFrom (.first (.of c)) [c] [] s

theorem flatten_clustersFrom (p : Preceding) (cluster : List Char) (done : List (List Char))
    (s : List Char) :
    (clustersFrom p cluster done s).flatten = done.reverse.flatten ++ (cluster.reverse ++ s) := by
  induction s generalizing p cluster done with
  | nil => simp [clustersFrom]
  | cons c s ih =>
    unfold clustersFrom
    dsimp only
    split <;> simp [ih]

theorem flatten_clusters (s : List Char) : (clusters s).flatten = s := by
  cases s with
  | nil => rfl
  | cons c s => simp [clusters, flatten_clustersFrom]

end EagerLambda
