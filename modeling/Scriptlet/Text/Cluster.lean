import Scriptlet.Text.ClusterClass

/-!
# Clusters

A text is cut into clusters between every two characters that do not join. The rule reads the
classes of all characters before the gap, nearest first, because three kinds of cluster are known
only from farther back: a conjunct needs a linker after its last consonant, a joined pictograph a
pictograph before the joiner, and a flag is closed by every second letter.
-/

namespace Scriptlet

namespace ClusterClass

/-- Line ends and controls join nothing, a line feed after a carriage return apart. -/
def standsAlone (k : ClusterClass) : Bool := k ∈ [carriageReturn, lineFeed, control]

/-- The marks that extend the character before. -/
def isMark (k : ClusterClass) : Bool := k ∈ [extending, linker, nonJoiner]

/-- What belongs to any character before it that does not stand alone. -/
def attaches (k : ClusterClass) : Bool := k.isMark || k ∈ [joiner, spacing]

/-- What may stand between two linked consonants. -/
def keepsLink (k : ClusterClass) : Bool := k ∈ [extending, linker, joiner]

/-- Whether two parts of a syllable block follow each other. -/
def syllableJoins : ClusterClass → ClusterClass → Bool
  | leading, next => next ∈ [leading, vowel, openSyllable, closedSyllable]
  | openSyllable, next | vowel, next => next ∈ [vowel, trailing]
  | closedSyllable, next | trailing, next => next = trailing
  | _, _ => false

/-- Whether the classes, nearest first, end with a consonant and marks, a linker among them. -/
def endsLinked (before : List ClusterClass) : Bool :=
  (before.takeWhile keepsLink).contains linker
    && (before.dropWhile keepsLink).head? = some consonant

/-- Whether the classes, nearest first, end with a pictograph and marks. -/
def endsPictured (before : List ClusterClass) : Bool :=
  (before.dropWhile isMark).head? = some pictograph

/-- Whether the classes, nearest first, end with an odd number of letters of flags. -/
def endsInHalfFlag (before : List ClusterClass) : Bool :=
  (before.takeWhile (· = regional)).length % 2 = 1

/-- Whether a character of the class `next` joins the text whose classes, nearest first, are
`last :: earlier`. -/
def joins (last : ClusterClass) (earlier : List ClusterClass) (next : ClusterClass) : Bool :=
  if last = carriageReturn ∧ next = lineFeed then true
  else if last.standsAlone || next.standsAlone then false
  else
    next.attaches || last = prepended || syllableJoins last next
      || (next = consonant && endsLinked (last :: earlier))
      || (next = pictograph && last = joiner && endsPictured earlier)
      || (next = regional && endsInHalfFlag (last :: earlier))

end ClusterClass

/-- A text that is being cut: the classes of what was read, nearest first, the cluster that is not
yet closed, reversed, and the closed clusters, newest first. -/
structure Cutting where
  before : List ClusterClass
  begun : List Char
  closed : List (List Char)

namespace Cutting

/-- Nothing is read. -/
def start : Cutting := ⟨[], [], []⟩

/-- The closed clusters with the begun one. -/
def closing (cutting : Cutting) : List (List Char) := cutting.begun.reverse :: cutting.closed

/-- Reads one more character. -/
def read (cutting : Cutting) (c : Char) : Cutting :=
  match cutting.before with
  | [] => ⟨[clusterClass c], [c], cutting.closed⟩
  | last :: earlier =>
    if last.joins earlier (clusterClass c) then
      ⟨clusterClass c :: cutting.before, c :: cutting.begun, cutting.closed⟩
    else ⟨clusterClass c :: cutting.before, [c], cutting.closing⟩

end Cutting

/-- The clusters of a text. -/
def clusters : List Char → List (List Char)
  | [] => []
  | c :: rest => (rest.foldl Cutting.read (Cutting.start.read c)).closing.reverse

end Scriptlet
