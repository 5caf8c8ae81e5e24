import FlatFileDb.Text.GraphemeTable

/-!
# Grapheme clusters

What a reader takes for one character may be several code points: a letter with its marks, two letters
of a flag, a syllable block, pictures that are joined to one. A text is cut between any two code
points that no rule joins. Whether one does depends on the code point that comes and on how the
cluster before it ends, so that a text is cut in one pass.
-/

namespace FlatFileDb.Text

/-- What a code point does at the borders of a cluster. -/
inductive GraphemeClass where
  | carriageReturn
  | lineFeed
  | control
  | extending
  /-- The joiner of pictures, which is extending besides. -/
  | joiner
  | spacing
  | prepended
  /-- One of the two letters of a flag. -/
  | regional
  | leading
  | vowel
  | trailing
  /-- A syllable block that ends in a vowel. -/
  | openBlock
  /-- A syllable block with a letter behind its vowel. -/
  | closedBlock
  | pictograph
  | consonant
  | other
  deriving DecidableEq, Repr

private def isIn (ranges : List (Nat × Nat)) (c : Char) : Bool :=
  ranges.any fun range => range.1 ≤ c.toNat && c.toNat ≤ range.2

namespace GraphemeClass

/-- The lists of code points and what those in each of them do. -/
def tables : List (List (Nat × Nat) × GraphemeClass) := [
  (GraphemeTable.control, .control),
  (GraphemeTable.extending, .extending),
  (GraphemeTable.spacing, .spacing),
  (GraphemeTable.prepended, .prepended),
  (GraphemeTable.pictographs, .pictograph),
  (GraphemeTable.consonants, .consonant),
  (GraphemeTable.leading, .leading),
  (GraphemeTable.vowels, .vowel),
  (GraphemeTable.trailing, .trailing)]

/-- What a code point does. The 399 open syllable blocks stand 28 places apart, each before the 27
closed ones that begin like it. -/
def ofChar (c : Char) : GraphemeClass :=
  if c == '\r' then .carriageReturn
  else if c == '\n' then .lineFeed
  else if c.toNat < 0x80 then if c.toNat < 0x20 || c.toNat == 0x7f then .control else .other
  else if c.toNat == 0x200d then .joiner
  else if 0x1f1e6 ≤ c.toNat && c.toNat ≤ 0x1f1ff then .regional
  else if 0xac00 ≤ c.toNat && c.toNat ≤ 0xd7a3 then
    if (c.toNat - 0xac00) % 28 == 0 then .openBlock else .closedBlock
  else ((tables.find? fun table => isIn table.1 c).map Prod.snd).getD .other

/-- Whether it stands alone. -/
def isControl (k : GraphemeClass) : Bool :=
  k == .carriageReturn || k == .lineFeed || k == .control

end GraphemeClass

/-- How a cluster ends. -/
structure ClusterEnd where
  last : GraphemeClass
  /-- An odd number of letters of flags stands at the end. -/
  halfFlag : Bool
  /-- A pictograph with marks behind it stands at the end, perhaps with a joiner as the last. -/
  picture : Bool
  /-- A consonant with marks behind it stands at the end. -/
  consonant : Bool
  /-- One of the marks behind that consonant is a linker. -/
  linked : Bool
  deriving DecidableEq, Repr

namespace ClusterEnd

/-- The end of no cluster. -/
def none : ClusterEnd :=
  { last := .control, halfFlag := false, picture := false, consonant := false, linked := false }

/-- The end after one more code point. The one mark that parts letters and is still extending, the
non-joiner U+200C, is not among the marks that may stand between consonants. -/
def push (ending : ClusterEnd) (c : Char) : ClusterEnd :=
  let kind := GraphemeClass.ofChar c
  let marks := kind == .extending || kind == .joiner
  let between := ending.consonant && marks && c.toNat != 0x200c
  { last := kind
    halfFlag := kind == .regional && !ending.halfFlag
    picture := kind == .pictograph || (ending.picture && marks && ending.last != .joiner)
    consonant := kind == .consonant || between
    linked := between && (ending.linked || isIn GraphemeTable.linkers c) }

/-- Whether a code point of the given class continues a cluster. -/
def joins (ending : ClusterEnd) (next : GraphemeClass) : Bool :=
  if ending.last == .carriageReturn && next == .lineFeed then true
  else if ending.last.isControl || next.isControl then false
  else
    match ending.last, next with
    | _, .extending | _, .joiner | _, .spacing | .prepended, _ => true
    | .leading, .leading | .leading, .vowel | .leading, .openBlock | .leading, .closedBlock => true
    | .openBlock, .vowel | .openBlock, .trailing | .vowel, .vowel | .vowel, .trailing => true
    | .closedBlock, .trailing | .trailing, .trailing => true
    | .joiner, .pictograph => ending.picture
    | .regional, .regional => ending.halfFlag
    | _, .consonant => ending.linked
    | _, _ => false

end ClusterEnd

/-- The clusters of a text behind the open cluster `cluster`, given from its end. -/
def clustersFrom (cluster : List Char) (ending : ClusterEnd) : List Char → List (List Char)
  | [] => [cluster.reverse]
  | c :: rest =>
    if ending.joins (.ofChar c) then clustersFrom (c :: cluster) (ending.push c) rest
    else cluster.reverse :: clustersFrom [c] (ClusterEnd.none.push c) rest

/-- The clusters of a text. -/
def clusters : List Char → List (List Char)
  | [] => []
  | c :: rest => clustersFrom [c] (ClusterEnd.none.push c) rest

theorem flatten_clustersFrom (cluster : List Char) (ending : ClusterEnd) (s : List Char) :
    (clustersFrom cluster ending s).flatten = cluster.reverse ++ s := by
  induction s generalizing cluster ending with
  | nil => simp [clustersFrom]
  | cons c rest ih =>
    rw [clustersFrom]
    split <;> simp [ih]

/-- Clusters only cut a text: nothing is lost. -/
theorem flatten_clusters (s : List Char) : (clusters s).flatten = s := by
  cases s with
  | nil => rfl
  | cons c rest => simp [clusters, flatten_clustersFrom]

end FlatFileDb.Text
