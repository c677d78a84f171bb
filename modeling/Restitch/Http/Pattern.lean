import Restitch.Http.Header
import Restitch.Http.Url
import Restitch.Std.Relationship
import Restitch.Std.Results

/-!
# Patterns of the request multiplexer (`net/http`)

The syntax of the patterns of `http.ServeMux`, and its test whether two patterns
conflict. A pattern has a method, a host and a path; the segments of the path are
literals, wildcards, and a last wildcard for the rest of the path.
-/

namespace Restitch.Http

open Restitch.Std

/-- A segment of a pattern's path. -/
inductive PathSegment where
  /-- An unescaped literal. The literal `/` stands for `{$}`, a trailing slash. -/
  | literal (bytes : List UInt8)
  | wild (name : List Char)
  /-- `{name...}`, or a trailing slash if the name is empty. -/
  | multi (name : List Char)
deriving DecidableEq

def PathSegment.isMulti : PathSegment → Bool
  | .multi _ => true
  | _ => false

/-- Only the last segment is for the rest of the path. -/
def MultiLast : List PathSegment → Prop
  | [] => True
  | segment :: rest => (segment.isMulti = true → rest = []) ∧ MultiLast rest

/-- A parsed pattern. -/
structure Pattern where
  method : List Char
  host : List Char
  segments : List PathSegment
  multiLast : MultiLast segments

/-- `unicode.IsLetter` and `unicode.IsDigit`. -/
structure CharClasses where
  isLetter : Char → Bool
  isDigit : Char → Bool

inductive PatternError where
  | emptyPattern
  /-- `invalid method %q` -/
  | invalidMethod (method : List Char)
  /-- `host/path missing /` -/
  | missingSlash
  /-- `host contains '\{'` -/
  | hostBrace
  /-- `non-CONNECT pattern with unclean path can never match` -/
  | uncleanPath
  /-- `bad wildcard segment (must start with '\{')` -/
  | badWildcardStart
  /-- `bad wildcard segment (must end with '\}')` -/
  | badWildcardEnd
  /-- `\{$\} not at end` -/
  | dollarNotLast
  /-- `\{...\} wildcard not at end` -/
  | multiNotLast
  /-- `empty wildcard` -/
  | emptyWildcard
  /-- `bad wildcard name %q` -/
  | badName (name : List Char)
  /-- `duplicate wildcard name %q` -/
  | duplicateName (name : List Char)
deriving DecidableEq

/-- The elements of `path.Clean` so far, last first. -/
def cleanElement (elements : List (List Char)) (element : List Char) : List (List Char) :=
  if element = [] ∨ element = ['.'] then elements
  else if element = ['.', '.'] then elements.tail
  else element :: elements

/-- `path.Clean` of a rooted path. -/
def cleanRooted (path : List Char) : List Char :=
  '/' :: (['/'].intercalate ((path.splitOn '/').foldl cleanElement []).reverse)

/-- `cleanPath` of a rooted path: a trailing slash stays. -/
def cleanPath (path : List Char) : List Char :=
  let cleaned := cleanRooted path
  if path.getLast? = some '/' ∧ cleaned ≠ ['/'] then cleaned ++ ['/'] else cleaned

/-- The method of a pattern and what follows it. -/
def splitMethod (pattern : List Char) : List Char × List Char :=
  match pattern.dropWhile fun c => c ≠ ' ' && c ≠ '\t' with
  | [] => ([], pattern)
  | _ :: rest => (pattern.takeWhile fun c => c ≠ ' ' && c ≠ '\t',
      rest.dropWhile fun c => c = ' ' || c = '\t')

/-- `isValidWildcardName`. -/
def isValidWildcardName (classes : CharClasses) : List Char → Bool
  | [] => false
  | first :: rest => (classes.isLetter first || first = '_') &&
      rest.all fun c => classes.isLetter c || c = '_' || classes.isDigit c

/-- What is wrong with the name of a wildcard. -/
def nameError (classes : CharClasses) (seen : List (List Char)) (name : List Char) :
    Option PatternError :=
  if name = [] then some .emptyWildcard
  else if !isValidWildcardName classes name then some (.badName name)
  else if seen.contains name then some (.duplicateName name)
  else none

/-- A wildcard segment from the text inside its braces. -/
def parseInner (classes : CharClasses) (seen : List (List Char)) (isLast : Bool)
    (inner : List Char) : Except PatternError PathSegment :=
  if inner = ['$'] then
    if isLast then .ok (.literal (utf8 ['/'])) else .error .dollarNotLast
  else if ['.', '.', '.'].isSuffixOf inner then
    let name := inner.take (inner.length - 3)
    if !isLast then .error .multiNotLast
    else
      match nameError classes seen name with
      | some error => .error error
      | none => .ok (.multi name)
  else
    match nameError classes seen inner with
    | some error => .error error
    | none => .ok (.wild inner)

/-- One segment of a path. -/
def parsePart (classes : CharClasses) (seen : List (List Char)) (isLast : Bool)
    (part : List Char) : Except PatternError PathSegment :=
  if '{' ∉ part then .ok (.literal (pathUnescape part))
  else if part.head? ≠ some '{' then .error .badWildcardStart
  else if part.getLast? ≠ some '}' then .error .badWildcardEnd
  else parseInner classes seen isLast part.tail.dropLast

/-- The wildcard names a segment adds to those seen. -/
def PathSegment.names : PathSegment → List (List Char)
  | .literal _ => []
  | .wild name | .multi name => [name]

/-- The segments of the parts of a path between its slashes. -/
def parseParts (classes : CharClasses) :
    List (List Char) → List (List Char) → Except PatternError (List PathSegment)
  | _, [] => .ok []
  | seen, part :: rest =>
      if part = [] ∧ rest = [] then .ok [.multi []]
      else do
        let segment ← parsePart classes seen rest.isEmpty part
        let later ← parseParts classes (segment.names ++ seen) rest
        return segment :: later

/-- A wildcard for all the rest is accepted in the last segment only. -/
theorem isLast_of_parseInner {classes : CharClasses} {seen : List (List Char)} {isLast : Bool}
    {inner : List Char} {segment : PathSegment}
    (parsed : parseInner classes seen isLast inner = .ok segment)
    (multi : segment.isMulti = true) : isLast = true := by
  unfold parseInner at parsed
  split at parsed
  · split at parsed
    · assumption
    · cases parsed
  · split at parsed
    · dsimp only at parsed
      split at parsed
      · cases parsed
      · rename_i last
        simpa using last
    · split at parsed
      · cases parsed
      · cases parsed
        cases multi

/-- A segment for all the rest is accepted as the last one only. -/
theorem isLast_of_parsePart {classes : CharClasses} {seen : List (List Char)} {isLast : Bool}
    {part : List Char} {segment : PathSegment}
    (parsed : parsePart classes seen isLast part = .ok segment)
    (multi : segment.isMulti = true) : isLast = true := by
  unfold parsePart at parsed
  split at parsed
  · cases parsed
    cases multi
  · split at parsed
    · cases parsed
    · split at parsed
      · cases parsed
      · exact isLast_of_parseInner parsed multi

/-- Only the last segment of a pattern matches all the rest. -/
theorem multiLast_of_parseParts {classes : CharClasses} {parts seen : List (List Char)}
    {segments : List PathSegment} (parsed : parseParts classes seen parts = .ok segments) :
    MultiLast segments := by
  induction parts generalizing seen segments with
  | nil =>
      cases parsed
      trivial
  | cons part rest ih =>
      rw [parseParts] at parsed
      split at parsed
      · cases parsed
        exact ⟨fun _ => rfl, trivial⟩
      · obtain ⟨segment, isSegment, parsed⟩ := Except.bind_eq_ok parsed
        obtain ⟨later, isLater, parsed⟩ := Except.bind_eq_ok parsed
        cases parsed
        refine ⟨fun multi => ?_, ih isLater⟩
        have last := isLast_of_parsePart isSegment multi
        rw [List.isEmpty_iff] at last
        subst last
        cases isLater
        rfl

/-- The segments of a rooted path. -/
def parsePath (classes : CharClasses) (path : List Char) :
    Except PatternError { segments // MultiLast segments } :=
  match parsed : parseParts classes [] (path.tail.splitOn '/') with
  | .ok segments => .ok ⟨segments, multiLast_of_parseParts parsed⟩
  | .error error => .error error

/-- `parsePattern`. -/
def parsePattern (classes : CharClasses) (text : String) : Except PatternError Pattern :=
  if text = "" then .error .emptyPattern
  else
    let (method, rest) := splitMethod text.toList
    let host := rest.takeWhile (· ≠ '/')
    let path := rest.dropWhile (· ≠ '/')
    if method ≠ [] ∧ !method.all isTokenChar then .error (.invalidMethod method)
    else if path = [] then .error .missingSlash
    else if '{' ∈ host then .error .hostBrace
    else if method ≠ [] ∧ method ≠ "CONNECT".toList ∧ path ≠ cleanPath path then
      .error .uncleanPath
    else (parsePath classes path).map fun segments => ⟨method, host, segments.1, segments.2⟩

/-- `compareMethods`. -/
def compareMethods (first second : List Char) : Relationship :=
  if first = second then .equivalent
  else if first = [] then .moreGeneral
  else if second = [] then .moreSpecific
  else if first = "GET".toList ∧ second = "HEAD".toList then .moreGeneral
  else if second = "GET".toList ∧ first = "HEAD".toList then .moreSpecific
  else .disjoint

/-- The segment of a trailing slash. -/
def slash : List UInt8 := utf8 ['/']

/-- `compareSegments`. -/
def compareSegments : PathSegment → PathSegment → Relationship
  | .multi _, .multi _ => .equivalent
  | .multi _, _ => .moreGeneral
  | _, .multi _ => .moreSpecific
  | .wild _, .wild _ => .equivalent
  | .wild _, .literal bytes => if bytes = slash then .disjoint else .moreGeneral
  | .literal bytes, .wild _ => if bytes = slash then .disjoint else .moreSpecific
  | .literal bytes, .literal other => if bytes = other then .equivalent else .disjoint

/-- The loop of `comparePaths` and what follows it. `multi` and `multi'` say whether
the two paths end in a wildcard for the rest. -/
def compareLoop (multi multi' : Bool) :
    Relationship → List PathSegment → List PathSegment → Relationship
  | relationship, segment :: rest, segment' :: rest' =>
      let next := relationship.combine (compareSegments segment segment')
      if next = .disjoint then .disjoint else compareLoop multi multi' next rest rest'
  | relationship, [], [] => relationship
  | relationship, [], _ :: _ => if multi then relationship.combine .moreGeneral else .disjoint
  | relationship, _ :: _, [] => if multi' then relationship.combine .moreSpecific else .disjoint

/-- `lastSegment().multi`. -/
def endsInMulti (segments : List PathSegment) : Bool :=
  segments.getLast?.any PathSegment.isMulti

/-- `comparePaths`. -/
def comparePaths (first second : List PathSegment) : Relationship :=
  if first.length ≠ second.length ∧ !endsInMulti first ∧ !endsInMulti second then .disjoint
  else compareLoop (endsInMulti first) (endsInMulti second) .equivalent first second

/-- `comparePathsAndMethods`. -/
def comparePathsAndMethods (first second : Pattern) : Relationship :=
  let methods := compareMethods first.method second.method
  if methods = .disjoint then .disjoint
  else methods.combine (comparePaths first.segments second.segments)

/-- `conflictsWith`. -/
def Pattern.conflictsWith (first second : Pattern) : Bool :=
  if first.host ≠ second.host then false
  else
    let relationship := comparePathsAndMethods first second
    relationship = .equivalent || relationship = .overlaps

end Restitch.Http
