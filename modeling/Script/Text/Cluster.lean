import Script.Text.ClusterClass

namespace Script.Text

/-- Does a character go on with what links consonants? Only the non-joiner stops it of the marks
that extend a character. -/
def extendsConjunct (c : Char) : Bool :=
  match ClusterClass.ofChar c with
  | .extend | .joiner => c ≠ '\u200C'
  | _ => false

/-- Is the end of a cluster, last character first, a consonant with a linker behind it? -/
def endsLinked (cluster : List Char) : Bool :=
  (cluster.takeWhile extendsConjunct).any isLinker &&
    match cluster.dropWhile extendsConjunct with
    | c :: _ => isConsonant c
    | [] => false

def endsPictured (cluster : List Char) : Bool :=
  match cluster.dropWhile (ClusterClass.ofChar · = .extend) with
  | c :: _ => isPictograph c
  | [] => false

/-- Regional letters go in pairs. Has the last one of a cluster none yet? -/
def endsUnpaired (cluster : List Char) : Bool :=
  (cluster.takeWhile (ClusterClass.ofChar · = .regional)).length % 2 = 1

/-- Does a character belong to the cluster before it, which stands here last character first? -/
def joins (cluster : List Char) (c : Char) : Bool :=
  match cluster with
  | [] => false
  | last :: before =>
    match ClusterClass.ofChar last, ClusterClass.ofChar c with
    | .carriageReturn, .lineFeed => true
    | .control, _ | .carriageReturn, _ | .lineFeed, _ => false
    | _, .control | _, .carriageReturn | _, .lineFeed => false
    | .leadingLetter, .leadingLetter | .leadingLetter, .vowel => true
    | .leadingLetter, .openSyllable | .leadingLetter, .closedSyllable => true
    | .openSyllable, .vowel | .openSyllable, .trailingLetter => true
    | .vowel, .vowel | .vowel, .trailingLetter => true
    | .closedSyllable, .trailingLetter | .trailingLetter, .trailingLetter => true
    | _, .extend | _, .joiner | _, .spacingMark => true
    | .prepend, _ => true
    | _, .consonant => endsLinked cluster
    | .joiner, .pictograph => endsPictured before
    | .regional, .regional => endsUnpaired cluster
    | _, _ => false

/-- The clusters of a text of which the last characters read are a cluster so far. -/
def clustersFrom (cluster : List Char) : List Char → List (List Char)
  | [] => [cluster.reverse]
  | c :: cs =>
    if joins cluster c then clustersFrom (c :: cluster) cs
    else cluster.reverse :: clustersFrom [c] cs

/-- The extended grapheme clusters of a text: what a reader takes for its characters. -/
def clusters : List Char → List (List Char)
  | [] => []
  | c :: cs => clustersFrom [c] cs

theorem flatten_clustersFrom (cluster cs : List Char) :
    (clustersFrom cluster cs).flatten = cluster.reverse ++ cs := by
  induction cs generalizing cluster with
  | nil => simp [clustersFrom]
  | cons c cs ih =>
    rw [clustersFrom]
    split <;> simp [ih]

/-- No character is lost. -/
theorem flatten_clusters (cs : List Char) : (clusters cs).flatten = cs := by
  cases cs with
  | nil => rfl
  | cons c cs => simp [clusters, flatten_clustersFrom]

end Script.Text
