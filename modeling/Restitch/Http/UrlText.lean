import Restitch.Http.UrlJoin

/-!
# Texts of URLs (`net/url`)

What `URL.String` prints is read back piece by piece: query and fragment end what stands before
them, and an escaped part is printed as it was written.
-/

namespace Restitch.Http

open Restitch.Std

/-- Neither a control character nor one that ends the part of a URL before its query. -/
def isPlain (c : Char) : Bool :=
  c ≠ '?' && c ≠ '#' && !(c.toNat < 0x20 || c.toNat = 0x7f)

section Escaped

variable {mode : Encoding} {text : List Char} {bytes : List UInt8} {raw : List Char}

/-- Escaped texts are valid. -/
theorem validEncoded_escape (mode : Encoding) (bytes : List UInt8) :
    validEncoded mode (escape mode bytes) = true := by
  rw [validEncoded, List.all_eq_true]
  intro c member
  rcases mem_escape member with keeps | rfl
  · rw [keeps, Bool.or_true]
  · rw [Bool.or_eq_true]
    exact .inl (by decide)

/-- An escaped fragment is decoded as what it was. -/
theorem unescapeBytes_escape_fragment (bytes : List UInt8) :
    unescapeBytes (utf8 (escape .fragment bytes)) = some bytes :=
  unescapeBytes_escapeByte (by decide) bytes

/-- A character of an ASCII text is ASCII. -/
theorem lt_of_mem {list : List Char} (ascii : list.all (fun c => c.toNat < 128) = true) {c : Char}
    (member : c ∈ list) : c.toNat < 128 :=
  of_decide_eq_true (List.all_eq_true.mp ascii c member)

/-- Characters outside of ASCII are always escaped. -/
theorem lt_of_keeps {c : Char} (keeps : mode.keeps c = true) : c.toNat < 128 := by
  unfold Encoding.keeps at keeps
  rcases (Bool.or_eq_true _ _).mp keeps with unreserved | listed
  · exact lt_of_isUnreserved unreserved
  · cases mode with
    | queryComponent => cases listed
    | path | userPassword | host | fragment =>
        exact lt_of_mem (by decide) (of_decide_eq_true listed)

/-- A character of a valid escaped path is plain. -/
theorem isPlain_of_valid {c : Char} (valid : (c ∈ ['!', '$', '&', '\'', '(', ')', '*', '+', ',', ';',
      '=', ':', '@', '[', ']', '%'] || Encoding.path.keeps c) = true) : isPlain c = true := by
  have ascii : c.toNat < 128 := by
    rcases (Bool.or_eq_true _ _).mp valid with listed | keeps
    · exact lt_of_mem (by decide) (of_decide_eq_true listed)
    · exact lt_of_keeps keeps
  have all : ∀ n < 128, (Char.ofNat n ∈ ['!', '$', '&', '\'', '(', ')', '*', '+', ',', ';',
      '=', ':', '@', '[', ']', '%'] || Encoding.path.keeps (Char.ofNat n)) = true →
      isPlain (Char.ofNat n) = true := by
    decide +kernel
  have here := all c.toNat ascii
  rw [Char.ofNat_toNat] at here
  exact here valid

/-- A validly encoded path has plain characters only. -/
theorem plain_of_validEncoded (valid : validEncoded .path text = true) :
    text.all isPlain = true := by
  rw [validEncoded, List.all_eq_true] at valid
  exact List.all_eq_true.mpr fun c member => isPlain_of_valid (valid c member)

/-- A text that is set as an escaped part is printed again. -/
theorem escaped_of_setEscaped (set : setEscaped mode text = some (bytes, raw))
    (valid : validEncoded mode text = true) : escaped mode bytes raw = text := by
  obtain ⟨decoded, unescaped, isResult⟩ := Option.map_eq_some_iff.mp set
  obtain ⟨rfl, rfl⟩ := Prod.mk.inj isResult
  rw [escaped]
  by_cases usual : text = escape mode decoded
  · rw [if_pos usual, if_neg (by simp)]
    exact usual.symm
  · rw [if_neg usual]
    by_cases empty : text = []
    · subst empty
      cases unescaped
      exact absurd rfl usual
    · rw [if_pos ⟨empty, valid, unescaped⟩]

/-- The text of an escaped part decodes to it. -/
theorem validEncoded_escaped (mode : Encoding) (bytes : List UInt8) (raw : List Char) :
    validEncoded mode (escaped mode bytes raw) = true := by
  rw [escaped]
  split
  · rename_i given
    exact given.2.1
  · exact validEncoded_escape mode bytes

/-- The fragment that is printed is decoded as the fragment. -/
theorem unescapeBytes_escaped_fragment (bytes : List UInt8) (raw : List Char) :
    unescapeBytes (utf8 (escaped .fragment bytes raw)) = some bytes := by
  rw [escaped]
  split
  · rename_i given
    exact given.2.2
  · exact unescapeBytes_escape_fragment bytes

end Escaped

section Path

variable {url : URL} {text : List Char} {bytes : List UInt8} {raw : List Char}

/-- Only an asterisk is printed other than as an escaped part. -/
theorem URL.escapedPath_eq (url : URL) : url.escapedPath =
    if escaped .path url.path url.rawPath = ['%', '2', 'A'] ∧ url.path = [0x2a] ∧
      ¬ (url.rawPath ≠ [] ∧ validEncoded .path url.rawPath ∧
        unescapeBytes (utf8 url.rawPath) = some url.path) then ['*']
    else escaped .path url.path url.rawPath := by
  rw [URL.escapedPath, escaped]
  by_cases given : url.rawPath ≠ [] ∧ validEncoded .path url.rawPath ∧
      unescapeBytes (utf8 url.rawPath) = some url.path
  · rw [if_pos given, if_neg fun all => all.2.2 given, if_pos given]
  · rw [if_neg given, if_neg given]
    by_cases star : url.path = [0x2a]
    · rw [if_pos star, if_pos ⟨by rw [star]; decide, star, given⟩]
    · rw [if_neg star, if_neg fun all => star all.2.1]

/-- The path that is printed is encoded validly. -/
theorem validEncoded_escapedPath (url : URL) : validEncoded .path url.escapedPath = true := by
  rw [url.escapedPath_eq]
  split
  · decide
  · exact validEncoded_escaped .path url.path url.rawPath

/-- The text of a path decodes to the path. -/
theorem unescapeBytes_escapedPath (url : URL) :
    unescapeBytes (utf8 url.escapedPath) = some url.path := by
  rw [URL.escapedPath]
  split
  · rename_i given
    exact given.2.2
  · split
    · rename_i star
      rw [star]
      decide +kernel
    · exact unescapeBytes_escape_path url.path

/-- The text of a path can be set as a path, and is printed again. -/
theorem escapedPath_of_valid (set : setEscaped .path text = some (bytes, raw))
    (valid : validEncoded .path text = true) (notStar : text ≠ ['%', '2', 'A'])
    (isPath : url.path = bytes) (isRaw : url.rawPath = raw) : url.escapedPath = text := by
  have printed := escaped_of_setEscaped set valid
  rw [url.escapedPath_eq, isPath, isRaw, printed, if_neg fun all => notStar all.1]

/-- The text that is kept is not the usual one. -/
theorem raw_of_setEscaped {mode : Encoding} (set : setEscaped mode text = some (bytes, raw)) :
    raw = [] ∨ raw ≠ escape mode bytes := by
  obtain ⟨decoded, -, isResult⟩ := Option.map_eq_some_iff.mp set
  obtain ⟨rfl, rfl⟩ := Prod.mk.inj isResult
  by_cases usual : text = escape mode decoded
  · exact .inl (if_pos usual)
  · rw [if_neg usual]
    exact .inr usual

/-- The text of a path that was set is no escaped asterisk. -/
theorem escapedPath_ne_star (set : url.rawPath = [] ∨ url.rawPath ≠ escape .path url.path) :
    url.escapedPath ≠ ['%', '2', 'A'] := by
  intro same
  have decodes := unescapeBytes_escapedPath url
  have star : url.path = [0x2a] := by
    rw [same] at decodes
    exact (Option.some_inj.mp (decodes.symm.trans (by decide +kernel)))
  rw [URL.escapedPath] at same
  split at same
  · rename_i given
    rcases set with empty | unusual
    · exact given.1 empty
    · rw [same, star] at unusual
      exact unusual (by decide)
  · exact absurd same (by decide)

/-- The text of a path can be set as a path. -/
theorem exists_setEscaped {text : List Char} {bytes : List UInt8}
    (decodes : unescapeBytes (utf8 text) = some bytes) :
    ∃ raw, setEscaped .path text = some (bytes, raw) := by
  rw [setEscaped, decodes]
  exact ⟨_, rfl⟩

end Path

section Parts

/-- The part of a text before query and fragment. -/
def URL.mainText (url : URL) : List Char :=
  (if url.scheme ≠ [] then url.scheme ++ [':'] else []) ++
    if url.opaquePart ≠ [] then url.opaquePart else url.authorityText ++ url.pathText

/-- A query in the text of a URL, with the mark of an empty one that is kept. -/
def queryText (query : List Char × Bool) : List Char :=
  if query.2 ∨ query.1 ≠ [] then '?' :: query.1 else []

def URL.fragmentText (url : URL) : List Char :=
  if url.fragment ≠ [] then '#' :: escaped .fragment url.fragment url.rawFragment else []

/-- The text of a URL is its main part, its query and its fragment. -/
theorem URL.text_eq (url : URL) :
    url.text = url.mainText ++ queryText (url.rawQuery, url.forceQuery) ++ url.fragmentText :=
  rfl

/-- A query that `Parse` finds: it ends before a fragment, and only an empty one is marked. -/
structure IsQuery (query : List Char × Bool) : Prop where
  unended : '#' ∉ query.1
  visible : containsCTL query.1 = false
  marked : query.2 = true → query.1 = []

variable (parseHost : List Char → Option (List Char))

/-- What `Parse` makes of the part before query and fragment. -/
def parseMain (main : List Char) (query : List Char × Bool) : Option URL :=
  (getScheme main).bind fun parts =>
    parseHierarchy parseHost (parts.1.map Char.toLower) query parts.2

variable {parseHost} {main rest tail scheme : List Char} {query : List Char × Bool} {url : URL}

/-- A plain text has no control character. -/
theorem containsCTL_of_plain (plain : main.all isPlain = true) : containsCTL main = false := by
  rw [containsCTL, List.any_eq_false]
  intro c member
  have here := List.all_eq_true.mp plain c member
  rw [isPlain, Bool.and_eq_true, Bool.not_eq_true'] at here
  exact Bool.eq_false_iff.mp here.2

/-- A plain text has none of the characters that end it. -/
theorem not_mem_of_plain {c : Char} (plain : main.all isPlain = true) (ends : isPlain c = false) :
    c ∉ main := by
  intro member
  rw [List.all_eq_true.mp plain c member] at ends
  cases ends

/-- A query is absent or starts with a question mark. -/
theorem queryText_head (query : List Char × Bool) :
    queryText query = [] ∨ ∃ tail, queryText query = '?' :: tail := by
  rw [queryText]
  split
  · exact .inr ⟨_, rfl⟩
  · exact .inl rfl

/-- The characters of a scheme. -/
def isSchemeChar (c : Char) : Bool := c.isAlphanum || c ∈ ['+', '-', '.']

/-- `getScheme` once the characters of a scheme are cut off. -/
def schemeBefore (name rest text : List Char) : Option (List Char × List Char) :=
  match name, rest with
  | [], ':' :: _ => none
  | first :: name, ':' :: rest => if first.isAlpha then some (first :: name, rest) else some ([], text)
  | _, _ => some ([], text)

/-- The scheme is what stands before the first character that is none of a scheme. -/
theorem getScheme_eq (text : List Char) : getScheme text =
    schemeBefore (text.takeWhile isSchemeChar) (text.dropWhile isSchemeChar) text :=
  rfl

/-- The scheme of a text does not depend on its query. -/
theorem getScheme_queryText (main : List Char) (query : List Char × Bool) :
    getScheme (main ++ queryText query) =
      (getScheme main).map fun parts => (parts.1, parts.2 ++ queryText query) := by
  rcases queryText_head query with none_ | ⟨tail, isTail⟩
  · simp [none_]
  · rw [isTail, getScheme_append]

/-- A query is cut off the text it was appended to. -/
theorem cutQuery_append (plain : '?' ∉ main) (isQuery : IsQuery query) :
    cutQuery (main ++ queryText query) = (main, query) := by
  obtain ⟨text, kept⟩ := query
  rw [cutQuery, queryText]
  by_cases shown : kept = true ∨ text ≠ []
  · rw [if_pos shown, GoStrings.cut_append plain]
    cases text with
    | nil =>
        rw [shown.resolve_right fun nonempty => nonempty rfl]
    | cons c more =>
        cases kept with
        | true => cases isQuery.marked rfl
        | false => rfl
  · rw [if_neg shown, List.append_nil, GoStrings.cut_of_not_mem plain]
    rw [not_or, not_not, Bool.not_eq_true] at shown
    rw [shown.1, shown.2]

/-- A scheme is cut off, or nothing is. -/
theorem getScheme_cases {text scheme rest : List Char}
    (found : getScheme text = some (scheme, rest)) :
    (scheme = [] ∧ rest = text) ∨
      (text = scheme ++ ':' :: rest ∧ scheme.all isSchemeChar = true ∧
        ∃ first name, scheme = first :: name ∧ first.isAlpha = true) := by
  rw [getScheme_eq] at found
  unfold schemeBefore at found
  have parts := List.takeWhile_append_dropWhile (p := isSchemeChar) (l := text)
  have allScheme : (text.takeWhile isSchemeChar).all isSchemeChar = true := List.all_takeWhile
  split at found
  · cases found
  · rename_i first name after isName isAfter
    rw [isName, isAfter] at parts
    rw [isName] at allScheme
    split at found
    · rename_i alpha
      cases found
      exact .inr ⟨parts.symm, allScheme, first, name, rfl, alpha⟩
    · cases found
      exact .inl ⟨rfl, rfl⟩
  · cases found
    exact .inl ⟨rfl, rfl⟩

/-- Main part and query are read on their own. -/
theorem parseWithoutFragment_append (plain : main.all isPlain = true) (isQuery : IsQuery query)
    (notStar : main ++ queryText query ≠ ['*']) :
    parseWithoutFragment parseHost (main ++ queryText query) = parseMain parseHost main query := by
  have visible : containsCTL (main ++ queryText query) = false := by
    rw [containsCTL_append, containsCTL_of_plain plain, Bool.false_or, queryText]
    split
    · exact isQuery.visible
    · rfl
  rw [parseWithoutFragment, visible, if_neg (by decide), if_neg notStar,
    getScheme_queryText, parseMain]
  cases found : getScheme main with
  | none => rfl
  | some parts =>
      obtain ⟨scheme, rest⟩ := parts
      have within : '?' ∉ rest := by
        intro member
        refine not_mem_of_plain plain (by decide : isPlain '?' = false) ?_
        rcases getScheme_cases found with ⟨-, rfl⟩ | ⟨rfl, -⟩
        · exact member
        · exact List.mem_append_right _ (List.mem_cons_of_mem _ member)
      simp only [Option.map_some, Option.bind_eq_bind, Option.bind_some,
        cutQuery_append within isQuery]

/-- A text with a scheme and no slash behind it. -/
def opaqueURL (scheme rest : List Char) (query : List Char × Bool) : URL :=
  ⟨scheme, rest, none, [], [], [], false, query.2, query.1, [], []⟩

/-- A URL with a path, and with an authority if there is one. -/
def pathURL (scheme : List Char) (user : Option (List UInt8 × Option (List UInt8)))
    (host : List Char) (omitHost : Bool) (query : List Char × Bool) (path : List UInt8 × List Char) :
    URL :=
  ⟨scheme, [], user, host, path.1, path.2, omitHost, query.2, query.1, [], []⟩

/-- The three forms of what follows a scheme. -/
theorem parseHierarchy_cases (parsed : parseHierarchy parseHost scheme query rest = some url) :
    (scheme ≠ [] ∧ rest.head? ≠ some '/' ∧ url = opaqueURL scheme rest query) ∨
      (∃ omitHost path, setEscaped .path rest = some path ∧
        url = pathURL scheme none [] omitHost query path ∧
        (scheme ≠ [] → omitHost = true ∧ rest.head? = some '/')) ∨
      ∃ authority user host path, rest = '/' :: '/' :: authority ∧
        (scheme ≠ [] ∨ authority.head? ≠ some '/') ∧
        parseAuthority parseHost (authority.takeWhile (· ≠ '/')) = some (user, host) ∧
        setEscaped .path (authority.dropWhile (· ≠ '/')) = some path ∧
        url = pathURL scheme user host false query path := by
  unfold parseHierarchy at parsed
  by_cases relative : rest.head? ≠ some '/'
  · rw [if_pos relative] at parsed
    split at parsed
    · rename_i schemed
      cases parsed
      exact .inl ⟨schemed, relative, rfl⟩
    · rename_i unschemed
      split at parsed
      · cases parsed
      · obtain ⟨path, set, rfl⟩ := Option.map_eq_some_iff.mp parsed
        exact .inr (.inl ⟨false, path, set, rfl, fun schemed => absurd schemed unschemed⟩)
  · rw [if_neg relative] at parsed
    have absolute := not_not.mp relative
    split at parsed
    · rename_i authority
      split at parsed
      · rename_i reads
        obtain ⟨⟨user, host⟩, isAuthority, parsed⟩ := Option.bind_eq_some_iff.mp parsed
        obtain ⟨path, set, rfl⟩ := Option.map_eq_some_iff.mp parsed
        exact .inr (.inr ⟨authority, user, host, path, rfl, reads, isAuthority, set, rfl⟩)
      · rename_i more
        rw [not_or, not_not] at more
        obtain ⟨path, set, rfl⟩ := Option.map_eq_some_iff.mp parsed
        exact .inr (.inl ⟨false, path, set, rfl, fun schemed => absurd more.1 schemed⟩)
    · obtain ⟨path, set, rfl⟩ := Option.map_eq_some_iff.mp parsed
      exact .inr (.inl ⟨_, path, set, rfl, fun schemed => ⟨decide_eq_true schemed, absolute⟩⟩)

/-- Main part and query come from a text that was read. -/
theorem parseWithoutFragment_cases {text : List Char}
    (parsed : parseWithoutFragment parseHost text = some url) :
    url = pathURL [] none [] false ([], false) ([0x2a], []) ∨
      ∃ scheme rest before query, containsCTL text = false ∧
        getScheme text = some (scheme, rest) ∧ cutQuery rest = (before, query) ∧
        parseHierarchy parseHost (scheme.map Char.toLower) query before = some url := by
  rw [parseWithoutFragment] at parsed
  split at parsed
  · cases parsed
  · rename_i visible
    split at parsed
    · cases parsed
      exact .inl rfl
    · obtain ⟨⟨scheme, rest⟩, found, parsed⟩ := Option.bind_eq_some_iff.mp parsed
      exact .inr ⟨scheme, rest, _, _, by simpa using visible, found, rfl, parsed⟩

/-- Reading without a fragment leaves none. -/
theorem fragment_of_parseWithoutFragment {text : List Char}
    (parsed : parseWithoutFragment parseHost text = some url) :
    url.fragment = [] ∧ url.rawFragment = [] := by
  rcases parseWithoutFragment_cases parsed with rfl | ⟨_, _, _, _, -, -, -, hierarchy⟩
  · exact ⟨rfl, rfl⟩
  · rcases parseHierarchy_cases hierarchy with ⟨-, -, rfl⟩ | ⟨_, _, -, rfl, -⟩ |
      ⟨_, _, _, _, -, -, -, -, rfl⟩ <;> exact ⟨rfl, rfl⟩

variable (parseHost) in
/-- A fragment is read on its own, and is printed again. -/
theorem parseURL_append {before : List Char} (unended : '#' ∉ before) (url : URL) :
    ∃ raw, (url.fragment ≠ [] →
        escaped .fragment url.fragment raw = escaped .fragment url.fragment url.rawFragment) ∧
      parseURL parseHost (before ++ url.fragmentText) =
        (parseWithoutFragment parseHost before).map fun back =>
          { back with fragment := url.fragment, rawFragment := raw } := by
  rw [URL.fragmentText]
  by_cases shown : url.fragment ≠ []
  · obtain ⟨raw, set⟩ : ∃ raw, setEscaped .fragment
        (escaped .fragment url.fragment url.rawFragment) = some (url.fragment, raw) := by
      rw [setEscaped, unescapeBytes_escaped_fragment]
      exact ⟨_, rfl⟩
    refine ⟨raw, fun _ => escaped_of_setEscaped set (validEncoded_escaped _ _ _), ?_⟩
    have nonempty : escaped .fragment url.fragment url.rawFragment ≠ [] := by
      intro empty
      have decodes := unescapeBytes_escaped_fragment url.fragment url.rawFragment
      rw [empty] at decodes
      exact shown (Option.some_inj.mp decodes).symm
    rw [if_pos shown, parseURL, GoStrings.cut_append unended]
    cases isText : escaped .fragment url.fragment url.rawFragment with
    | nil => exact absurd isText nonempty
    | cons c more =>
        dsimp only
        rw [← isText, set]
        cases parseWithoutFragment parseHost before <;> rfl
  · refine ⟨[], fun nonempty => absurd nonempty shown, ?_⟩
    rw [if_neg shown, List.append_nil, parseURL, GoStrings.cut_of_not_mem unended]
    dsimp only
    cases parsed : parseWithoutFragment parseHost before with
    | none => rfl
    | some back =>
        obtain ⟨noFragment, noRaw⟩ := fragment_of_parseWithoutFragment parsed
        rw [Option.map_some, not_not.mp shown, ← noFragment]
        rw [← noRaw]

/-- A scheme as it is written. -/
structure IsSchemeName (scheme : List Char) : Prop where
  chars : scheme.all isSchemeChar = true
  alpha : ∀ first name, scheme = first :: name → first.isAlpha = true

/-- A scheme as `Parse` gives it. -/
structure IsScheme (scheme : List Char) : Prop extends IsSchemeName scheme where
  lower : scheme.map Char.toLower = scheme

/-- A scheme in the text of a URL. -/
def schemeText (scheme : List Char) : List Char := if scheme ≠ [] then scheme ++ [':'] else []

/-- The lower case of a scheme character is one. -/
theorem isSchemeChar_toLower {c : Char} (isChar : isSchemeChar c = true) :
    isSchemeChar c.toLower = true ∧ c.toLower.toLower = c.toLower ∧
      (c.isAlpha = true → c.toLower.isAlpha = true) := by
  have ascii : c.toNat < 128 := by
    rcases (Bool.or_eq_true _ _).mp isChar with alphanum | listed
    · exact lt_of_isAlphanum alphanum
    · exact lt_of_mem (by decide) (of_decide_eq_true listed)
  have all : ∀ n < 128, isSchemeChar (Char.ofNat n) = true →
      isSchemeChar (Char.ofNat n).toLower = true ∧
        (Char.ofNat n).toLower.toLower = (Char.ofNat n).toLower ∧
        ((Char.ofNat n).isAlpha = true → (Char.ofNat n).toLower.isAlpha = true) := by
    decide +kernel
  have here := all c.toNat ascii
  rw [Char.ofNat_toNat] at here
  exact here isChar

/-- What `Parse` finds is a scheme. -/
theorem isScheme_of_getScheme {text : List Char} (found : getScheme text = some (scheme, rest)) :
    IsScheme (scheme.map Char.toLower) := by
  rcases getScheme_cases found with ⟨rfl, -⟩ | ⟨-, chars, first, name, rfl, alpha⟩
  · exact ⟨⟨rfl, fun _ _ same => by cases same⟩, rfl⟩
  · constructor
    · constructor
      · rw [List.all_map, List.all_eq_true]
        exact fun c member => (isSchemeChar_toLower (List.all_eq_true.mp chars c member)).1
      · intro other more same
        obtain ⟨rfl, -⟩ := List.cons_eq_cons.mp same
        have isChar := List.all_eq_true.mp chars first List.mem_cons_self
        exact (isSchemeChar_toLower isChar).2.2 alpha
    · rw [List.map_map]
      refine List.map_congr_left fun c member => ?_
      exact (isSchemeChar_toLower (List.all_eq_true.mp chars c member)).2.1

/-- A text whose first segment has no colon has no scheme. -/
theorem getScheme_of_noColon {text : List Char} (noColon : ':' ∉ (GoStrings.cut '/' text).1) :
    getScheme text = some ([], text) := by
  have parts := List.takeWhile_append_dropWhile (p := isSchemeChar) (l := text)
  have allScheme : (text.takeWhile isSchemeChar).all isSchemeChar = true := List.all_takeWhile
  have noRest : ∀ more, text.dropWhile isSchemeChar ≠ ':' :: more := by
    intro more isRest
    refine noColon ?_
    have noSlash : ∀ name : List Char, name.all isSchemeChar = true →
        ':' ∈ (GoStrings.cut '/' (name ++ ':' :: more)).1 := by
      intro name chars
      induction name with
      | nil => exact List.mem_cons_self
      | cons c name ih =>
          rw [List.all_cons, Bool.and_eq_true] at chars
          have other : c ≠ '/' := by
            rintro rfl
            exact absurd chars.1 (by decide)
          rw [List.cons_append, GoStrings.cut, if_neg other]
          exact List.mem_cons_of_mem c (ih chars.2)
    rw [← parts, isRest]
    exact noSlash _ allScheme
  rw [getScheme_eq]
  unfold schemeBefore
  split
  · rename_i isRest
    exact absurd isRest (noRest _)
  · rename_i isRest
    exact absurd isRest (noRest _)
  · rfl

/-- A scheme is read back. -/
theorem getScheme_schemeText (isName : IsSchemeName scheme) {text : List Char}
    (noColon : scheme = [] → ':' ∉ (GoStrings.cut '/' text).1) :
    getScheme (schemeText scheme ++ text) = some (scheme, text) := by
  cases written : scheme with
  | nil => exact getScheme_of_noColon (noColon written)
  | cons first name =>
      have chars := isName.chars
      rw [written] at chars
      have stops : isSchemeChar ':' = false := by decide
      have isText : schemeText (first :: name) ++ text = (first :: name) ++ ':' :: text := by
        rw [schemeText, if_pos (List.cons_ne_nil _ _), List.append_assoc]
        rfl
      rw [isText, getScheme_eq, takeWhile_append_stop stops, dropWhile_append_stop stops,
        List.takeWhile_eq_self_iff.mpr (List.all_eq_true.mp chars),
        List.dropWhile_eq_nil_iff.mpr (List.all_eq_true.mp chars)]
      exact if_pos (isName.alpha first name written)

/-- What follows a scheme without a slash is opaque. -/
theorem parseMain_opaque (isScheme : IsScheme scheme) (schemed : scheme ≠ [])
    (relative : rest.head? ≠ some '/') :
    parseMain parseHost (schemeText scheme ++ rest) query = some (opaqueURL scheme rest query) := by
  rw [parseMain, getScheme_schemeText isScheme.toIsSchemeName fun none_ => absurd none_ schemed,
    Option.bind_some, isScheme.lower]
  unfold parseHierarchy
  dsimp only
  rw [if_pos relative, if_pos schemed]
  rfl

/-- There is no colon in the empty segment in front of an authority. -/
theorem noColon_of_slashes (authority : List Char) :
    ':' ∉ (GoStrings.cut '/' ('/' :: '/' :: authority)).1 :=
  List.not_mem_nil

/-- Two slashes before an authority. -/
theorem parseMain_authority (isName : IsSchemeName scheme) {authority : List Char}
    (reads : scheme ≠ [] ∨ authority.head? ≠ some '/') :
    parseMain parseHost (schemeText scheme ++ '/' :: '/' :: authority) query =
      (parseAuthority parseHost (authority.takeWhile (· ≠ '/'))).bind fun parts =>
        (setEscaped .path (authority.dropWhile (· ≠ '/'))).map
          (pathURL (scheme.map Char.toLower) parts.1 parts.2 false query) := by
  have lowered : scheme.map Char.toLower ≠ [] ∨ authority.head? ≠ some '/' :=
    reads.imp_left fun schemed => by simpa using schemed
  rw [parseMain, getScheme_schemeText isName fun _ => noColon_of_slashes authority,
    Option.bind_some, parseHierarchy, if_neg (by simp)]
  dsimp only
  rw [if_pos lowered]
  rfl

variable (parseHost query) in
/-- A path that no authority can be read from. -/
theorem parseMain_path (isScheme : IsScheme scheme) {text : List Char}
    {path : List UInt8 × List Char} (set : setEscaped .path text = some path)
    (rooted : scheme ≠ [] → text.head? = some '/')
    (noColon : scheme = [] → ':' ∉ (GoStrings.cut '/' text).1)
    (isPath : ∀ authority, text = '/' :: '/' :: authority →
      scheme = [] ∧ authority.head? = some '/') :
    ∃ omitHost, (scheme ≠ [] → omitHost = true) ∧
      parseMain parseHost (schemeText scheme ++ text) query =
        some (pathURL scheme none [] omitHost query path) := by
  rw [parseMain, getScheme_schemeText isScheme.toIsSchemeName noColon, Option.bind_some,
    isScheme.lower]
  unfold parseHierarchy
  dsimp only
  by_cases relative : text.head? ≠ some '/'
  · have unschemed : scheme = [] := by
      by_contra schemed
      exact relative (rooted schemed)
    refine ⟨false, fun schemed => absurd unschemed schemed, ?_⟩
    rw [if_pos relative, if_neg (not_not.mpr unschemed), if_neg (noColon unschemed), withPath, set]
    rfl
  · rw [if_neg relative]
    split
    · rename_i authority
      obtain ⟨unschemed, more⟩ := isPath authority rfl
      refine ⟨false, fun schemed => absurd unschemed schemed, ?_⟩
      rw [if_neg (by simp [unschemed, more]), withPath, set]
      rfl
    · refine ⟨decide (scheme ≠ []), fun schemed => decide_eq_true schemed, ?_⟩
      rw [withPath, set]
      rfl

end Parts

end Restitch.Http
