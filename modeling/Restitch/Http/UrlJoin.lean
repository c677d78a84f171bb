import Restitch.Http.PathSegments

/-!
# Parsing a URL that is put together

What `url.Parse` makes of a text with a query, from what it makes of the text before
the query, and of a base URL with a path behind it.
-/

namespace Restitch.Http

open Restitch.Std

/-- A scan ends in front of the character that stops it. -/
theorem takeWhile_append_stop {keep : Char → Bool} {stop : Char} (stops : keep stop = false)
    (text rest : List Char) : (text ++ stop :: rest).takeWhile keep = text.takeWhile keep := by
  induction text with
  | nil => simp [stops]
  | cons c text ih =>
      rw [List.cons_append, List.takeWhile_cons, List.takeWhile_cons, ih]

/-- What is left of a scanned text is followed by the character that stops the scan. -/
theorem dropWhile_append_stop {keep : Char → Bool} {stop : Char} (stops : keep stop = false)
    (text rest : List Char) :
    (text ++ stop :: rest).dropWhile keep = text.dropWhile keep ++ stop :: rest := by
  induction text with
  | nil => simp [stops]
  | cons c text ih =>
      rw [List.cons_append, List.dropWhile_cons, List.dropWhile_cons, ih]
      split <;> rfl

section Query

variable (parseHost : List Char → Option (List Char))

/-- `url.Parse` of a text without query and fragment, for a query behind it. -/
def parsePrefix (text : List Char) : Option URL :=
  if containsCTL text then none
  else do
    let (scheme, rest) ← getScheme text
    parseHierarchy parseHost (scheme.map Char.toLower) ([], false) rest

/-- The scheme does not reach into what follows a `?`. -/
theorem getScheme_append (text query : List Char) :
    getScheme (text ++ '?' :: query) =
      (getScheme text).map fun found => (found.1, found.2 ++ '?' :: query) := by
  simp only [getScheme]
  rw [takeWhile_append_stop (by decide), dropWhile_append_stop (by decide)]
  generalize text.takeWhile (fun c => c.isAlphanum || decide (c ∈ ['+', '-', '.'])) = name
  generalize text.dropWhile (fun c => c.isAlphanum || decide (c ∈ ['+', '-', '.'])) = rest
  cases name with
  | nil =>
      cases rest with
      | nil => rfl
      | cons c rest => by_cases colon : c = ':' <;> simp [colon]
  | cons first name =>
      cases rest with
      | nil => simp
      | cons c rest =>
          by_cases colon : c = ':'
          · subst colon
            by_cases alpha : first.isAlpha <;> simp [alpha]
          · simp [colon]

/-- The query plays no part when the path is set. -/
theorem withPath_query (scheme : List Char) (user : Option (List UInt8 × Option (List UInt8)))
    (host : List Char) (omitHost : Bool) (query : List Char × Bool) (text : List Char) :
    withPath scheme user host omitHost query text =
      (withPath scheme user host omitHost ([], false) text).map fun url =>
        { url with rawQuery := query.1, forceQuery := query.2 } := by
  rw [withPath, withPath, Option.map_map]
  rfl

/-- The query is kept apart from the rest. -/
theorem parseHierarchy_query (scheme : List Char) (query : List Char × Bool) (rest : List Char) :
    parseHierarchy parseHost scheme query rest =
      (parseHierarchy parseHost scheme ([], false) rest).map fun url =>
        { url with rawQuery := query.1, forceQuery := query.2 } := by
  unfold parseHierarchy
  split
  · split
    · rfl
    · split
      · rfl
      · exact withPath_query ..
  · split
    · split
      · rename_i authority _ _
        cases parseAuthority parseHost (authority.takeWhile (· ≠ '/')) with
        | none => rfl
        | some found => exact withPath_query ..
      · exact withPath_query ..
    · exact withPath_query ..

/-- A text has a control character if one of its parts has. -/
theorem containsCTL_append (first second : List Char) :
    containsCTL (first ++ second) = (containsCTL first || containsCTL second) :=
  List.any_append

/-- What may stand in a path as it is has no control characters. -/
theorem containsCTL_of_validEncoded {text : List Char} (valid : validEncoded .path text = true) :
    containsCTL text = false := by
  rw [containsCTL, List.any_eq_false]
  intro c member control
  have printable : ∀ n < 128, validEncoded .path [Char.ofNat n] = true →
      ¬ (n < 0x20 ∨ n = 0x7f) := by
    decide +kernel
  simp only [Bool.or_eq_true, decide_eq_true_eq] at control
  have here := printable c.toNat (by omega)
  rw [Char.ofNat_toNat, validEncoded, List.all_cons, List.all_nil, Bool.and_true] at here
  exact here (List.all_eq_true.mp valid c member) control

/-- A character that is not in the text is not behind its scheme either. -/
theorem not_mem_rest_of_getScheme {c : Char} {text scheme rest : List Char} (absent : c ∉ text)
    (found : getScheme text = some (scheme, rest)) : c ∉ rest := by
  simp only [getScheme] at found
  split at found
  · cases found
  · rename_i name rest' isName isRest
    split at found
    · cases found
      intro member
      have later : c ∈ text.dropWhile _ := isRest ▸ List.mem_cons_of_mem _ member
      exact absent ((List.dropWhile_sublist _).subset later)
    · cases found
      exact absent
  · cases found
    exact absent

/-- A query without control characters changes nothing before it. -/
theorem parseURL_query {text query : List Char} (noQuery : '?' ∉ text) (noFragment : '#' ∉ text)
    (clean : '#' ∉ query) (printable : containsCTL query = false) (nonempty : query ≠ []) :
    parseURL parseHost (text ++ '?' :: query) =
      (parsePrefix parseHost text).map fun url => { url with rawQuery := query } := by
  have whole : '#' ∉ text ++ '?' :: query := by
    simp only [List.mem_append, List.mem_cons, not_or]
    exact ⟨noFragment, by decide, clean⟩
  have controls : containsCTL (text ++ '?' :: query) = containsCTL text := by
    rw [containsCTL_append, show containsCTL ('?' :: query) = false from printable, Bool.or_false]
  have notStar : text ++ '?' :: query ≠ ['*'] := by
    intro same
    have member : '?' ∈ ['*'] := same ▸ List.mem_append_right _ List.mem_cons_self
    cases List.mem_singleton.mp member
  rw [parseURL, GoStrings.cut_of_not_mem whole]
  simp only [parseWithoutFragment, parsePrefix, controls, if_neg notStar, getScheme_append]
  split
  · rfl
  · cases found : getScheme text with
    | none => rfl
    | some split =>
        obtain ⟨scheme, rest⟩ := split
        have absent := not_mem_rest_of_getScheme noQuery found
        have isCut : cutQuery (rest ++ '?' :: query) = (rest, query, false) := by
          rw [cutQuery, GoStrings.cut_append absent]
          cases query with
          | nil => exact absurd rfl nonempty
          | cons c tail => rfl
        simp only [Option.map_some, bind, Option.bind, isCut]
        rw [parseHierarchy_query]
        cases parsed : parseHierarchy parseHost (scheme.map Char.toLower) ([], false) rest with
        | none => rfl
        | some url =>
            have unforced :=
              parseHierarchy_query parseHost (scheme.map Char.toLower) ([], false) rest
            rw [parsed, Option.map_some, Option.some_inj] at unforced
            rw [unforced]
            rfl

end Query

section Base

variable {parseHost : List Char → Option (List Char)}

/-- A scheme that was found is found before any other text. -/
theorem getScheme_of_found {text scheme rest : List Char} (named : scheme ≠ [])
    (found : getScheme text = some (scheme, rest)) :
    text = scheme ++ ':' :: rest ∧
      ∀ other, getScheme (scheme ++ ':' :: other) = some (scheme, other) := by
  simp only [getScheme] at found
  split at found
  · cases found
  · rename_i first name rest' isName isRest
    split at found
    · rename_i alpha
      cases found
      have all : ∀ c ∈ first :: name, (c.isAlphanum || decide (c ∈ ['+', '-', '.'])) = true := by
        intro c member
        rw [← isName] at member
        have kept := List.mem_takeWhile_imp member
        exact kept
      refine ⟨?_, fun other => ?_⟩
      · rw [← isName, ← isRest]
        exact List.takeWhile_append_dropWhile.symm
      · simp only [getScheme]
        rw [takeWhile_append_stop (by decide), dropWhile_append_stop (by decide),
          List.takeWhile_eq_self_iff.mpr all, List.dropWhile_eq_nil_iff.mpr all]
        simp [alpha]
    · cases found
      exact absurd rfl named
  · cases found
    exact absurd rfl named

/-- Without query and fragment, what follows the scheme is parsed as it is. -/
theorem parseURL_plain {text : List Char} (noQuery : '?' ∉ text) (noFragment : '#' ∉ text)
    (notStar : text ≠ ['*']) {url : URL} (parsed : parseURL parseHost text = some url) :
    ∃ scheme rest, getScheme text = some (scheme, rest) ∧
      parseHierarchy parseHost (scheme.map Char.toLower) ([], false) rest = some url := by
  rw [parseURL, GoStrings.cut_of_not_mem noFragment] at parsed
  simp only [parseWithoutFragment, if_neg notStar] at parsed
  split at parsed
  · cases parsed
  · obtain ⟨⟨scheme, rest⟩, found, parsed⟩ := Option.bind_eq_some_iff.mp parsed
    have absent := not_mem_rest_of_getScheme noQuery found
    simp only [cutQuery, GoStrings.cut_of_not_mem absent] at parsed
    exact ⟨scheme, rest, found, parsed⟩

/-- Without a query and a fragment, a URL is its own prefix. -/
theorem parseURL_eq_parsePrefix {text : List Char} (noQuery : '?' ∉ text) (noFragment : '#' ∉ text)
    (notStar : text ≠ ['*']) : parseURL parseHost text = parsePrefix parseHost text := by
  rw [parseURL, GoStrings.cut_of_not_mem noFragment]
  simp only [parseWithoutFragment, parsePrefix, if_neg notStar]
  split
  · rfl
  · cases found : getScheme text with
    | none => rfl
    | some split =>
        have absent := not_mem_rest_of_getScheme noQuery found
        simp only [bind, Option.bind, cutQuery, GoStrings.cut_of_not_mem absent]

/-- A URL that is built has the parts it was built from. -/
theorem scheme_of_withPath {scheme : List Char}
    {user : Option (List UInt8 × Option (List UInt8))} {host : List Char} {omitHost : Bool}
    {query : List Char × Bool} {text : List Char} {url : URL}
    (built : withPath scheme user host omitHost query text = some url) :
    url.scheme = scheme ∧ url.user = user ∧ url.host = host ∧
      setEscaped .path text = some (url.path, url.rawPath) := by
  obtain ⟨⟨path, rawPath⟩, isPath, rfl⟩ := Option.map_eq_some_iff.mp built
  exact ⟨rfl, rfl, rfl, isPath⟩

/-- A URL with a host has an authority before its path. -/
theorem authority_of_parseHierarchy (noHost : parseHost [] = some []) {scheme rest : List Char}
    {query : List Char × Bool} {url : URL}
    (parsed : parseHierarchy parseHost scheme query rest = some url) (hasHost : url.host ≠ []) :
    ∃ authority path, rest = '/' :: '/' :: (authority ++ path) ∧ authority ≠ [] ∧
      '/' ∉ authority ∧ (path = [] ∨ path.head? = some '/') ∧ url.scheme = scheme ∧
      parseAuthority parseHost authority = some (url.user, url.host) ∧
      setEscaped .path path = some (url.path, url.rawPath) := by
  unfold parseHierarchy at parsed
  split at parsed
  · split at parsed
    · cases parsed
      exact absurd rfl hasHost
    · split at parsed
      · cases parsed
      · exact absurd (scheme_of_withPath parsed).2.2.1 hasHost
  · split at parsed
    · rename_i authority _
      split at parsed
      · obtain ⟨⟨user, host⟩, isAuthority, parsed⟩ := Option.bind_eq_some_iff.mp parsed
        obtain ⟨isScheme, rfl, rfl, isPath⟩ := scheme_of_withPath parsed
        refine ⟨authority.takeWhile (· ≠ '/'), authority.dropWhile (· ≠ '/'), ?_, ?_, ?_, ?_,
          isScheme, isAuthority, isPath⟩
        · rw [List.takeWhile_append_dropWhile]
        · intro empty
          rw [empty, parseAuthority] at isAuthority
          simp only [GoStrings.cutLast, GoStrings.cut, List.reverse_nil, noHost, Option.map_some,
            Option.some_inj, Prod.mk.injEq] at isAuthority
          exact hasHost isAuthority.2.symm
        · intro member
          simpa using List.mem_takeWhile_imp member
        · have stop := List.head?_dropWhile_not (· ≠ '/') authority
          cases behind : authority.dropWhile (· ≠ '/') with
          | nil => exact .inl rfl
          | cons c rest =>
              rw [behind] at stop
              exact .inr (by simpa using stop)
      · exact absurd (scheme_of_withPath parsed).2.2.1 hasHost
    · exact absurd (scheme_of_withPath parsed).2.2.1 hasHost

/-- An authority ends where the path starts. -/
theorem parseHierarchy_authority {scheme authority path : List Char} {query : List Char × Bool}
    (named : scheme ≠ []) (noSlash : '/' ∉ authority) :
    parseHierarchy parseHost scheme query ('/' :: '/' :: (authority ++ '/' :: path)) =
      (parseAuthority parseHost authority).bind fun found =>
        withPath scheme found.1 found.2 false query ('/' :: path) := by
  have all : ∀ c ∈ authority, decide (c ≠ '/') = true := by
    intro c member
    exact decide_eq_true fun same => noSlash (same ▸ member)
  have taken : (authority ++ '/' :: path).takeWhile (· ≠ '/') = authority := by
    rw [takeWhile_append_stop (by decide), List.takeWhile_eq_self_iff.mpr all]
  have dropped : (authority ++ '/' :: path).dropWhile (· ≠ '/') = '/' :: path := by
    rw [dropWhile_append_stop (by decide), List.dropWhile_eq_nil_iff.mpr all]
    rfl
  rw [parseHierarchy, if_neg (by simp)]
  simp only [if_pos (Or.inl named), taken, dropped]
  rfl

/-- What is dropped at the end is behind the last other character. -/
theorem rdropWhile_append_kept {drop : Char → Bool} {c : Char} (kept : drop c = false)
    (first second : List Char) :
    (first ++ c :: second).rdropWhile drop = first ++ c :: second.rdropWhile drop := by
  induction second using List.reverseRecOn with
  | nil =>
      rw [List.rdropWhile_nil, List.rdropWhile_concat, if_neg (by simp [kept])]
  | append_singleton second d ih =>
      rw [← List.cons_append, ← List.append_assoc, List.rdropWhile_concat, List.rdropWhile_concat]
      split
      · exact ih
      · rw [List.append_assoc, List.cons_append]

/-- A joined path starts with a slash. -/
theorem absolute_of_rdropWhile {text : List Char} (absolute : text = [] ∨ text.head? = some '/')
    (path : List Char) :
    ∃ behind, text.rdropWhile (· = '/') ++ '/' :: path = '/' :: behind := by
  cases kept : text.rdropWhile (· = '/') with
  | nil => exact ⟨path, rfl⟩
  | cons c rest =>
      obtain ⟨dropped, isText⟩ := List.rdropWhile_prefix (· = '/') text
      rw [kept, List.cons_append] at isText
      rcases absolute with empty | slash
      · rw [empty] at isText
        cases isText
      · rw [← isText] at slash
        cases slash
        exact ⟨_, rfl⟩

/-- A URL has no control characters. -/
theorem containsCTL_of_parseURL {text : List Char} (noFragment : '#' ∉ text) {url : URL}
    (parsed : parseURL parseHost text = some url) : containsCTL text = false := by
  rw [parseURL, GoStrings.cut_of_not_mem noFragment] at parsed
  by_contra controls
  simp only [parseWithoutFragment, if_pos (Bool.of_not_eq_false controls)] at parsed
  cases parsed

/-- A special character is behind a base only if it is in the base or in the path. -/
theorem not_mem_join {base path : List Char} {special : Char} (slash : special ≠ '/')
    (inBase : special ∉ base) (inPath : special ∉ path) :
    special ∉ base.rdropWhile (· = '/') ++ '/' :: path := by
  rw [List.mem_append, List.mem_cons, not_or, not_or]
  exact ⟨fun member => inBase ((List.rdropWhile_prefix _ _).subset member), slash, inPath⟩

section Join

variable (noHost : parseHost [] = some []) {base : List Char} {b : URL}
  (isBase : parseURL parseHost base = some b) (named : b.scheme ≠ []) (hasHost : b.host ≠ [])
  (plainBase : '?' ∉ base ∧ '#' ∉ base)

include noHost isBase named hasHost plainBase

/-- A base URL is its scheme, its authority and its path. -/
theorem exists_authority :
    ∃ scheme authority text, base = scheme ++ ':' :: '/' :: '/' :: (authority ++ text) ∧
      (∀ other, getScheme (scheme ++ ':' :: other) = some (scheme, other)) ∧
      b.scheme = scheme.map Char.toLower ∧ authority ≠ [] ∧ '/' ∉ authority ∧
      (text = [] ∨ text.head? = some '/') ∧
      parseAuthority parseHost authority = some (b.user, b.host) ∧
      setEscaped .path text = some (b.path, b.rawPath) := by
  have notStar : base ≠ ['*'] := by
    rintro rfl
    cases isBase
    exact named rfl
  obtain ⟨scheme, rest, found, isHierarchy⟩ := parseURL_plain plainBase.1 plainBase.2 notStar isBase
  obtain ⟨authority, text, rfl, nonempty, noSlash, absolute, isScheme, isAuthority, isText⟩ :=
    authority_of_parseHierarchy noHost isHierarchy hasHost
  have schemeNamed : scheme ≠ [] := by
    rintro rfl
    exact named isScheme
  obtain ⟨isWhole, other⟩ := getScheme_of_found schemeNamed found
  exact ⟨scheme, authority, text, isWhole, other, isScheme, nonempty, noSlash, absolute, isAuthority,
    isText⟩

/-- What is put behind a base starts with a slash. -/
theorem head?_basePath (path : List Char) : (b.basePath ++ '/' :: path).head? = some '/' := by
  obtain ⟨_, _, text, -, -, -, -, -, absolute, -, isText⟩ :=
    exists_authority noHost isBase named hasHost plainBase
  obtain ⟨behind, isBehind⟩ := absolute_of_rdropWhile absolute path
  rw [URL.basePath, givenPath_of_setEscaped isText, isBehind]
  rfl

/-- The path of a base decodes. -/
theorem exists_decoded_basePath : ∃ bytes, decodeSegment b.basePath = some bytes := by
  obtain ⟨_, _, text, -, -, -, -, -, -, -, isText⟩ :=
    exists_authority noHost isBase named hasHost plainBase
  obtain ⟨bytes, decoded, -⟩ := Option.map_eq_some_iff.mp isText
  rw [URL.basePath, givenPath_of_setEscaped isText]
  have isWhole : text.rdropWhile (· = '/') ++ text.rtakeWhile (· = '/') = text :=
    List.rdropWhile_append_rtakeWhile
  cases dropped : text.rtakeWhile (· = '/') with
  | nil =>
      rw [dropped, List.append_nil] at isWhole
      exact ⟨bytes, isWhole.symm ▸ decoded⟩
  | cons c rest =>
      have slash : c = '/' := by
        have member : c ∈ text.rtakeWhile (· = '/') := by
          rw [dropped]
          exact List.mem_cons_self
        simpa using List.mem_rtakeWhile_imp member
      have isBytes : decodeSegment text = some bytes := decoded
      rw [← isWhole, dropped, slash] at isBytes
      obtain ⟨before, -, isBefore, -⟩ := decodeSegment_join isBytes
      exact ⟨before, isBefore⟩

/-- A path behind a base URL changes nothing but the path. -/
theorem parseURL_join_eq {path : List Char} (plainPath : '?' ∉ path ∧ '#' ∉ path)
    (printable : containsCTL path = false) :
    parseURL parseHost (base.rdropWhile (· = '/') ++ '/' :: path) =
      withPath b.scheme b.user b.host false ([], false) (b.basePath ++ '/' :: path) := by
  obtain ⟨scheme, authority, text, isWhole, other, isScheme, nonempty, noSlash, absolute,
    isAuthority, isText⟩ := exists_authority noHost isBase named hasHost plainBase
  -- The base without the slashes at its end is its scheme, its authority and the base path.
  have trimmed : base.rdropWhile (· = '/') =
      scheme ++ ':' :: '/' :: '/' :: (authority ++ b.basePath) := by
    rw [isWhole, URL.basePath, givenPath_of_setEscaped isText]
    obtain ⟨init, last, rfl⟩ := List.eq_nil_or_concat authority |>.resolve_left nonempty
    have kept : decide (last = '/') = false := by
      refine decide_eq_false fun same => noSlash ?_
      simp [same]
    have dropped : (scheme ++ ':' :: '/' :: '/' :: init ++ last :: text).rdropWhile (· = '/') =
        scheme ++ ':' :: '/' :: '/' :: init ++ last :: text.rdropWhile (· = '/') :=
      rdropWhile_append_kept kept _ _
    simpa using dropped
  have controls : containsCTL (base.rdropWhile (· = '/') ++ '/' :: path) = false := by
    obtain ⟨dropped, whole⟩ := List.rdropWhile_prefix (· = '/') base
    have baseControls := containsCTL_of_parseURL plainBase.2 isBase
    rw [← whole, containsCTL_append, Bool.or_eq_false_iff] at baseControls
    rw [containsCTL_append, baseControls.1, Bool.false_or]
    exact printable
  have notStar : base.rdropWhile (· = '/') ++ '/' :: path ≠ ['*'] := by
    intro star
    have slash : '/' ∈ ['*'] := star ▸ List.mem_append_right _ List.mem_cons_self
    cases List.mem_singleton.mp slash
  obtain ⟨behind, isBehind⟩ := absolute_of_rdropWhile absolute path
  rw [← givenPath_of_setEscaped isText] at isBehind
  rw [parseURL_eq_parsePrefix (not_mem_join (by decide) plainBase.1 plainPath.1)
    (not_mem_join (by decide) plainBase.2 plainPath.2) notStar, parsePrefix,
    if_neg (Bool.eq_false_iff.mp controls), trimmed, List.append_assoc, List.cons_append,
    List.cons_append, List.cons_append, List.append_assoc, URL.basePath, isBehind, other]
  simp only [bind, Option.bind]
  rw [← isScheme, parseHierarchy_authority named noSlash, isAuthority]
  rfl

/-- The parts of such a URL. -/
theorem parseURL_join {path : List Char} {url : URL} (plainPath : '?' ∉ path ∧ '#' ∉ path)
    (parsed : parseURL parseHost (base.rdropWhile (· = '/') ++ '/' :: path) = some url) :
    url.scheme = b.scheme ∧ url.user = b.user ∧ url.host = b.host ∧
      (b.basePath ++ '/' :: path).head? = some '/' ∧
      setEscaped .path (b.basePath ++ '/' :: path) = some (url.path, url.rawPath) := by
  have controls := containsCTL_of_parseURL (not_mem_join (by decide) plainBase.2 plainPath.2) parsed
  rw [containsCTL_append, Bool.or_eq_false_iff] at controls
  rw [parseURL_join_eq noHost isBase named hasHost plainBase plainPath controls.2] at parsed
  obtain ⟨sameScheme, sameUser, sameHost, isPath⟩ := scheme_of_withPath parsed
  exact ⟨sameScheme, sameUser, sameHost, head?_basePath noHost isBase named hasHost plainBase path,
    isPath⟩

end Join

end Base

end Restitch.Http
