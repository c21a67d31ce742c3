import Lox.Text.Cluster.Role

namespace Lox

/-!
# Clusters of characters

A text is cut into the units that a reader takes for single characters: a letter with its accents,
a flag of two letters, several pictures joined into one, the parts of a syllable. The cuts are
those of the extended grapheme clusters of Unicode.

* `Cluster.joins` — whether there is no cut in front of a character.
* `clusters` — the clusters of a text.
* `flatten_clusters` — nothing is lost or reordered.
-/

namespace Cluster

namespace Role

/-- Controls and line ends are cut off on both sides. -/
def isControl : Role → Bool
  | .control | .carriageReturn | .lineFeed => true
  | _ => false

/-- The marks that stay with whatever is in front of them. -/
def attaches : Role → Bool
  | .extend | .linker | .nonJoiner | .joiner | .spacingMark => true
  | _ => false

/-- Whether two parts of a Hangul syllable follow each other in one syllable. -/
def composes : Role → Role → Bool
  | .leading, .leading | .leading, .vowel | .leading, .openSyllable | .leading, .closedSyllable
  | .vowel, .vowel | .vowel, .trailing | .openSyllable, .vowel | .openSyllable, .trailing
  | .trailing, .trailing | .closedSyllable, .trailing => true
  | _, _ => false

end Role

/-! ### Looking back

The roles in front of a place are given from that place backwards. -/

/-- Whether the text ends in a consonant with marks behind it, a linker among them; `linked` tells
    whether a linker has been passed on the way back. -/
def endsLinked (linked : Bool) : List Role → Bool
  | .linker :: before => endsLinked true before
  | .extend :: before | .joiner :: before => endsLinked linked before
  | .consonant :: _ => linked
  | _ => false

/-- Whether the text ends in a picture with marks behind it. -/
def endsPictured : List Role → Bool
  | .extend :: before | .linker :: before | .nonJoiner :: before => endsPictured before
  | .pictograph :: _ => true
  | _ => false

/-- Whether the text ends in half a flag: letters of flags pair up from the first one on. -/
def endsInHalfFlag (before : List Role) : Bool :=
  (before.takeWhile (· == .regional)).length % 2 == 1

/-- Whether a character of role `role` stays in the cluster of the character in front of it. -/
def joins (before : List Role) (role : Role) : Bool :=
  match before with
  | [] => false
  | last :: earlier =>
    if last.isControl || role.isControl then last == .carriageReturn && role == .lineFeed
    else
      role.attaches || last == .prepend || last.composes role ||
        (role == .consonant && endsLinked false before) ||
        (role == .pictograph && last == .joiner && endsPictured earlier) ||
        (role == .regional && endsInHalfFlag before)

/-! ### Cutting -/

/-- The clusters of a text behind characters of the roles `before`. The first of them may go on a
    cluster that began there. -/
def splitFrom (before : List Role) : List Char → List (List Char)
  | [] => []
  | c :: cs =>
    let before := Role.ofChar c :: before
    match cs, splitFrom before cs with
    | next :: _, first :: rest =>
      if joins before (Role.ofChar next) then (c :: first) :: rest else [c] :: first :: rest
    | _, rest => [c] :: rest

theorem flatten_splitFrom (before : List Role) (cs : List Char) :
    (splitFrom before cs).flatten = cs := by
  induction cs generalizing before with
  | nil => rfl
  | cons c cs ih =>
    have ih := ih (Role.ofChar c :: before)
    unfold splitFrom
    simp only
    split
    · next h =>
      rw [h] at ih
      split <;> simpa using ih
    · simpa using ih

end Cluster

/-- The clusters of a text. -/
def clusters (cs : List Char) : List (List Char) := Cluster.splitFrom [] cs

@[simp] theorem flatten_clusters (cs : List Char) : (clusters cs).flatten = cs :=
  Cluster.flatten_splitFrom [] cs

end Lox
