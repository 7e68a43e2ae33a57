import Roster.Files.Tree
import Roster.Text.Basic
import Roster.Text.Order

/-!
# Path patterns

In a pattern `?` stands for one character, `*` for any number of them, `[…]` for one of a set or of
ranges and `[!…]` for one that is not in it. A component `**` stands for any number of folders; the
two stars may not stand beside other characters, and three are no pattern.

`GlobToken.matchAll` matches tokens with a name; it looks at every token once for each character of
the name. `matchAll_nil`, `matchAll_anySequence` and `matchAll_cons` say what it decides.

`GlobPattern.ofText?` reads a pattern component by component, and `FileTree.select` lists the paths
that match it. A component without wildcards is looked up and need not be listed by its folder, so
`.` and `..` may be named; of components with wildcards those that start with a dot match them too.
The parent folder is searched first, then the folder itself, and then what it lists, in ascending
order. A path that matches in several ways is listed as often.
-/

namespace Roster

open Text

/-- A part of a component. -/
inductive GlobToken
  | literal (c : Char)
  | anyCharacter
  | anySequence
  | oneOf (ranges : List (Char × Char))
  | noneOf (ranges : List (Char × Char))
  deriving Repr, DecidableEq

/-- What stands between two slashes of a pattern. -/
inductive GlobComponent
  /-- A name without wildcards. -/
  | name (s : String)
  | tokens (tokens : List GlobToken)
  | anyFolders
  deriving Repr, DecidableEq

/-- The ranges that the inside of brackets stands for. -/
def bracketRanges : List Char → List (Char × Char)
  | a :: '-' :: b :: cs => (a, b) :: bracketRanges cs
  | a :: cs => (a, a) :: bracketRanges cs
  | [] => []

namespace GlobToken

/-- Reads a set after its opening bracket. The first character of the set may be the closing
bracket. -/
def set? : List Char → Option (GlobToken × List Char)
  | '!' :: c :: cs =>
    (cut? [']'] cs).map fun (inside, rest) => (.noneOf (bracketRanges (c :: inside)), rest)
  | ['!'] => none
  | c :: cs =>
    (cut? [']'] cs).map fun (inside, rest) => (.oneOf (bracketRanges (c :: inside)), rest)
  | [] => none

/-- Reads the tokens of a text in which two stars do not stand side by side. -/
def ofText? (fuel : Nat) (cs : List Char) : Option (List GlobToken) :=
  match fuel, cs with
  | _, [] => some []
  | 0, _ => none
  | fuel + 1, '?' :: cs => (ofText? fuel cs).map (.anyCharacter :: ·)
  | _, '*' :: '*' :: _ => none
  | fuel + 1, '*' :: cs => (ofText? fuel cs).map (.anySequence :: ·)
  | fuel + 1, '[' :: cs => do
    let (token, rest) ← set? cs
    return token :: (← ofText? fuel rest)
  | fuel + 1, c :: cs => (ofText? fuel cs).map (.literal c :: ·)

/-- Whether a character lies in one of some ranges. -/
def inRanges (ranges : List (Char × Char)) (c : Char) : Bool :=
  ranges.any fun (first, last) => first.toNat ≤ c.toNat && c.toNat ≤ last.toNat

/-- Whether a token that stands for one character stands for the given one. -/
def accepts : GlobToken → Char → Bool
  | .literal a, c => a == c
  | .anyCharacter, _ => true
  | .anySequence, _ => false
  | .oneOf ranges, c => inRanges ranges c
  | .noneOf ranges, c => !inRanges ranges c

/-- For each place in a row, whether anything from there on holds. -/
def anyFrom : List Bool → List Bool
  | [] => []
  | b :: bs =>
    let later := anyFrom bs
    (b || later.headD false) :: later

/-- For a text and each of its end parts, from the longest to the empty one, whether tokens match
the whole of it. -/
def matchEnds : List GlobToken → List Char → List Bool
  | [], cs => cs.map (fun _ => false) ++ [true]
  | .anySequence :: ts, cs => anyFrom (matchEnds ts cs)
  | t :: ts, cs =>
    List.zipWith (fun c rest => t.accepts c && rest) cs (matchEnds ts cs).tail ++ [false]

/-- Whether tokens match a whole text. -/
def matchAll (ts : List GlobToken) (cs : List Char) : Bool :=
  (matchEnds ts cs).headD false

private theorem tail_anyFrom (bs : List Bool) : (anyFrom bs).tail = anyFrom bs.tail := by
  cases bs <;> rfl

private theorem length_matchEnds (ts : List GlobToken) (cs : List Char) :
    (matchEnds ts cs).length = cs.length + 1 := by
  have hany (bs : List Bool) : (anyFrom bs).length = bs.length := by
    induction bs with
    | nil => rfl
    | cons b bs ih => simp [anyFrom, ih]
  induction ts with
  | nil => simp [matchEnds]
  | cons t ts ih => cases t <;> simp [matchEnds, hany, ih]

/-- What is known of a text without its first character is known of its end part. -/
private theorem tail_matchEnds (ts : List GlobToken) (c : Char) (cs : List Char) :
    (matchEnds ts (c :: cs)).tail = matchEnds ts cs := by
  induction ts with
  | nil => rfl
  | cons t ts ih =>
    have hlen := length_matchEnds ts cs
    have hzip (f : Char → Bool → Bool) :
        (List.zipWith f (c :: cs) (matchEnds ts cs) ++ [false]).tail
          = List.zipWith f cs (matchEnds ts cs).tail ++ [false] := by
      match h : matchEnds ts cs with
      | [] => simp [h] at hlen
      | b :: bs => rfl
    cases t <;> simp only [matchEnds, tail_anyFrom, ih, hzip]

private theorem matchEnds_cons (ts : List GlobToken) (c : Char) (cs : List Char) :
    matchEnds ts (c :: cs) = matchAll ts (c :: cs) :: matchEnds ts cs := by
  have hlen := length_matchEnds ts (c :: cs)
  rw [matchAll, ← tail_matchEnds ts c cs]
  match h : matchEnds ts (c :: cs) with
  | [] => simp [h] at hlen
  | b :: bs => rfl

/-- No tokens match only the empty text. -/
theorem matchAll_nil (cs : List Char) : matchAll [] cs = cs.isEmpty := by
  cases cs <;> rfl

/-- A star matches nothing, or one character and what it may match after that. -/
theorem matchAll_anySequence (ts : List GlobToken) (c : Char) (cs : List Char) :
    matchAll (.anySequence :: ts) (c :: cs)
      = (matchAll ts (c :: cs) || matchAll (.anySequence :: ts) cs) := by
  rw [matchAll, matchEnds, matchEnds_cons]
  rfl

/-- Any other token matches one character. -/
theorem matchAll_cons {t : GlobToken} (h : t ≠ .anySequence) (ts : List GlobToken) (c : Char)
    (cs : List Char) : matchAll (t :: ts) (c :: cs) = (t.accepts c && matchAll ts cs) := by
  have hlen := length_matchEnds ts cs
  have hhead (f : Char → Bool → Bool) :
      (List.zipWith f (c :: cs) (matchEnds ts cs) ++ [false]).headD false
        = f c ((matchEnds ts cs).headD false) := by
    match he : matchEnds ts cs with
    | [] => simp [he] at hlen
    | b :: bs => rfl
  cases t <;> first | exact absurd rfl h | simp only [matchAll, matchEnds, tail_matchEnds, hhead]

/-- The character that a token stands for, if it has no choice. -/
def literal? : GlobToken → Option Char
  | .literal c => some c
  | _ => none

end GlobToken

/-- A pattern: whether it starts at the root, and its components. -/
structure GlobPattern where
  fromRoot : Bool
  components : List GlobComponent
  /-- Only folders match. -/
  foldersOnly : Bool
  deriving Repr, DecidableEq

namespace GlobComponent

/-- Reads a component. -/
def ofText? (cs : List Char) : Option GlobComponent :=
  if cs == ['*', '*'] then some .anyFolders
  else
    (GlobToken.ofText? cs.length cs).map fun tokens =>
      match tokens.mapM GlobToken.literal? with
      | some literal => .name (String.ofList literal)
      | none => .tokens tokens

/-- Whether a component that stands for one name stands for the given one. -/
def matchName (component : GlobComponent) (name : String) : Bool :=
  match component with
  | .name s => s == name
  | .tokens ts => GlobToken.matchAll ts name.toList
  | .anyFolders => false

/-- Takes rows of components for any number of folders for one. -/
def collapse : List GlobComponent → List GlobComponent
  | .anyFolders :: .anyFolders :: cs => collapse (.anyFolders :: cs)
  | c :: cs => c :: collapse cs
  | [] => []

end GlobComponent

/-- The pieces of a text between slashes, without an empty one at the end. -/
def pieces (cs : List Char) : List (List Char) :=
  let all := cs.splitOn '/'
  match all.getLast? with
  | some [] => all.dropLast
  | _ => all

/-- Reads a pattern. -/
def GlobPattern.ofText? (text : String) : Option GlobPattern := do
  let cs := text.toList
  let components ← (pieces (cs.dropWhile (· == '/'))).mapM GlobComponent.ofText?
  return ⟨cs.head? == some '/', GlobComponent.collapse components, cs.getLast? == some '/'⟩

/-- A place that was reached in a tree: the path as it is written and the names from the root. -/
structure Place where
  path : String
  names : List String
  deriving Repr, DecidableEq

namespace Place

/-- Whether the path of a place says nothing but that it is the current folder. -/
def isCurrent (here : Place) : Bool :=
  (pathNames here.path).all (· == ".")

/-- The place one name further, with the name written after the path. -/
def step (here : Place) (name : String) : Place :=
  { path :=
      if name.isEmpty || "/".toList.isSuffixOf here.path.toList then here.path ++ name
      else here.path ++ "/" ++ name
    names :=
      if name == "" || name == "." then here.names
      else if name == ".." then here.names.dropLast
      else here.names ++ [name] }

/-- The place one name further. The current folder is not written out. -/
def enter (here : Place) (name : String) : Place :=
  if here.isCurrent then { here.step name with path := name } else here.step name

/-- The last name of a place. -/
def name (here : Place) : String :=
  (here.names.getLast?).getD ""

end Place

namespace FileTree

/-- What stands at a place, if its path can be followed. -/
def entry? (tree : FileTree) (place : Place) : Option FileEntry :=
  if place.path.isEmpty || longestPath < place.path.utf8ByteSize then none
  else tree.entryAt? place.names

/-- Whether a place is a folder. -/
def isFolder (tree : FileTree) (place : Place) : Bool :=
  match tree.entry? place with
  | some .folder => true
  | _ => false

/-- Everything below a folder, at any depth. -/
def placesBelow (tree : FileTree) (here : Place) : List Place :=
  (tree.below tree.depth here.names).map fun names => names.foldl Place.enter here

/-- The places that components lead to from a place. -/
def places (tree : FileTree) : List GlobComponent → Place → List Place
  | [], here => [here]
  | .name s :: components, here =>
    let next := here.enter s
    if tree.isFolder here && (tree.entry? next).isSome then places tree components next
    else []
  | .tokens ts :: components, here =>
    if tree.isFolder here then
      let special :=
        if ts.head? == some (.literal '.') then
          ["..", "."].filter fun s => GlobToken.matchAll ts s.toList
        else []
      let listed := (tree.children here.names).filter fun s => GlobToken.matchAll ts s.toList
      (special.map here.step ++ listed.map here.enter).flatMap fun place =>
        places tree components place
    else []
  | [.anyFolders], here => (tree.placesBelow here).filter tree.isFolder
  | .anyFolders :: component :: components, here =>
    ((tree.placesBelow here).filter fun place => component.matchName place.name).flatMap
      fun place => places tree components place

/-- The paths that a pattern matches. -/
def select (tree : FileTree) (pattern : GlobPattern) : List Place :=
  let start : Place := if pattern.fromRoot then ⟨"/", []⟩ else ⟨".", tree.current⟩
  (tree.places pattern.components start).filter fun place =>
    !pattern.foldersOnly || tree.isFolder place

end FileTree

/-! ## The order of paths -/

/-- The steps of a path, with a number that puts the root before the current folder, that before
the parent folder and that before names. Only at the start does `.` count as a step. -/
def pathSteps (path : String) : List (Nat × String) :=
  let root := if "/".toList.isPrefixOf path.toList then [(0, "")] else []
  let names := pathNames path
  let current := if names.head? == some "." then [(1, "")] else []
  root ++ current ++ (names.filter fun s => s != "" && s != ".").map fun s =>
    if s == ".." then (2, "") else (3, s)

/-- Whether the first row of steps comes before the second or is equal to it. -/
def stepsPrecede : List (Nat × String) → List (Nat × String) → Bool
  | [], _ => true
  | _ :: _, [] => false
  | (m, s) :: as, (n, t) :: bs =>
    if m < n then true
    else if n < m then false
    else if s = t then stepsPrecede as bs
    else precedes s.toList t.toList

/-- Whether the first path comes before the second or takes the same steps. -/
def pathPrecedes (a b : String) : Bool :=
  stepsPrecede (pathSteps a) (pathSteps b)

end Roster
