import PocketShell.Text.Grapheme.Class
import PocketShell.Text.Grapheme.Conjunct
import PocketShell.Text.Grapheme.Pictograph

/-!
# Clusters

`clusters` cuts a text into grapheme clusters, the stretches that a reader sees as one character.
They are the extended grapheme clusters of the Unicode standard. A text is cut between any two
characters, unless one of the rules of `joins` keeps them together:

* a carriage return and the line feed behind it; control characters otherwise stand alone;
* the parts of a syllable of Hangul;
* a mark and what is before it, or a mark of the class `prepend` and what is behind it;
* the consonants of a conjunct (`isConjunct`);
* the pictographs of one picture (`isPicture`);
* the two letters of a flag (`isFlag`).

Nothing is lost in the cutting: `flatten_clusters`.
-/

namespace PocketShell.Text

namespace Grapheme

/-- Is the character a mark that may stand between the consonants of a conjunct? All marks without a
width may, and the joiner, but not the character that keeps letters apart. -/
def isConjunctMark (c : Char) : Bool :=
  (classOf c = .extend || classOf c = .joiner) && c ≠ '\u200c'

/-- **Conjuncts.** Does a character go on with a conjunct? It is a consonant then, and marks with a
linker among them stand between it and the consonant before it. The characters before it are given
in reverse. -/
def isConjunct (before : List Char) (c : Char) : Bool :=
  isConsonant c && (before.takeWhile isConjunctMark).any isLinker &&
    (before.dropWhile isConjunctMark).head?.any isConsonant

/-- **Pictures.** Does a character go on with a picture? It is a pictograph then, and a joiner, with
marks before it, stands between it and the pictograph before it. The characters before it are given
in reverse. -/
def isPicture (before : List Char) (c : Char) : Bool :=
  isPictograph c && before.head?.any (classOf · = .joiner) &&
    (before.tail.dropWhile (classOf · = .extend)).head?.any isPictograph

/-- **Flags.** Is a character the second letter of a flag? The characters before it are given in
reverse. -/
def isFlag (before : List Char) (c : Char) : Bool :=
  classOf c = .regional && (before.takeWhile (classOf · = .regional)).length % 2 = 1

/-- **The rules.** Does a character belong to the cluster before it? The characters of the cluster
are given in reverse. -/
def joins (cluster : List Char) (c : Char) : Bool :=
  match cluster.head?.map classOf with
  | none => false
  | some last =>
    let next := classOf c
    -- the order matters: control characters stand alone, but for one pair of them
    if last = .carriageReturn && next = .lineFeed then true
    else if last.isAlone || next.isAlone then false
    else next.isMark || last = .prepend || last.isSyllable next ||
      isConjunct cluster c || isPicture cluster c || isFlag cluster c

/-- Adds a character to the clusters of a text. The clusters, and the characters of each, are given
in reverse. -/
def addChar (clusters : List (List Char)) (c : Char) : List (List Char) :=
  match clusters with
  | [] => [[c]]
  | cluster :: rest =>
    if joins cluster c then (c :: cluster) :: rest else [c] :: cluster :: rest

end Grapheme

/-- **Clusters.** The grapheme clusters of a text. -/
def clusters (cs : List Char) : List (List Char) :=
  ((cs.foldl Grapheme.addChar []).map List.reverse).reverse

namespace Grapheme

/-- A character is added at the end. -/
theorem flatten_addChar (clusters : List (List Char)) (c : Char) :
    (addChar clusters c).flatten = c :: clusters.flatten := by
  cases clusters with
  | nil => rfl
  | cons cluster rest => rw [addChar]; split <;> rfl

theorem flatten_foldl_addChar (cs : List Char) (clusters : List (List Char)) :
    (cs.foldl addChar clusters).flatten = cs.reverse ++ clusters.flatten := by
  induction cs generalizing clusters with
  | nil => rfl
  | cons c cs ih => simp [ih, flatten_addChar]

end Grapheme

/-- **Nothing is lost.** The clusters of a text, put together, are the text. -/
theorem flatten_clusters (cs : List Char) : (clusters cs).flatten = cs := by
  simp [clusters, ← List.reverse_flatten, Grapheme.flatten_foldl_addChar]

end PocketShell.Text
