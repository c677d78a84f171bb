import Restitch.Http.UrlText
import Restitch.Reqlog.Redaction

/-!
# Redacting twice

A redacted URL is read back as it was, and redacted again to itself, unless its path looks like
an authority: a path that has to be escaped may then begin with two slashes, with nothing in
front of it.
-/

namespace Restitch.Reqlog

open Restitch.Http Restitch.Std

/-- What the syntax of hosts comes to. Hosts are as `URL.String` prints them. -/
structure HostSyntax (parseHost : List Char → Option (List Char)) : Prop where
  empty : parseHost [] = some []
  nonempty : ∀ {text}, parseHost text = some [] → text = []
  plain : ∀ {text host}, parseHost text = some host →
    host.all (fun c => isPlain c && c ≠ '/' && c ≠ '@') = true

/-- The redacted user info in the text of a URL. -/
def redactedUser : List Char := userText (utf8 redacted.toList, none)

/-- The authority of a redacted URL. -/
def shownAuthority (user : Option (List UInt8 × Option (List UInt8))) (host : List Char) :
    List Char :=
  (if user.isSome then redactedUser ++ ['@'] else []) ++ host

/-- The text of a URL before its query, redacted. -/
def redactedMain (url : URL) : List Char := (withoutUser url).mainText

/-- `URL.String` prints an authority. -/
def HasAuthority (url : URL) : Prop :=
  url.user.isSome ∨ url.host ≠ [] ∨ (url.scheme ≠ [] ∧ url.omitHost = false ∧ url.path ≠ [])

/-- A path with nothing but a scheme in front of it. -/
def shownPath (url : URL) : List Char :=
  if url.scheme = [] ∧ ':' ∈ (GoStrings.cut '/' url.escapedPath).1 then '.' :: '/' :: url.escapedPath
  else url.escapedPath

section Shown

variable {url : URL}

/-- The user is replaced by the redaction mark. -/
theorem withoutUser_eq (url : URL) :
    withoutUser url = { url with user := url.user.map fun _ => (utf8 redacted.toList, none) } := by
  unfold withoutUser
  cases isUser : url.user with
  | none =>
      rw [if_neg (by simp), Option.map_none, ← isUser]
  | some user => rfl

/-- An opaque URL is shown with its scheme. -/
theorem redactedMain_opaque (given : url.opaquePart ≠ []) :
    redactedMain url = schemeText url.scheme ++ url.opaquePart := by
  rw [redactedMain, withoutUser_eq, URL.mainText]
  dsimp only
  rw [if_pos given]
  rfl

/-- An authority stands between the scheme and the path. -/
theorem redactedMain_authority (noOpaque : url.opaquePart = []) (has : HasAuthority url)
    (rooted : url.escapedPath = [] ∨ url.escapedPath.head? = some '/') :
    redactedMain url =
      schemeText url.scheme ++ '/' :: '/' :: (shownAuthority url.user url.host ++ url.escapedPath) := by
  have printed : (withoutUser url).authorityText =
      '/' :: '/' :: shownAuthority url.user url.host := by
    rw [withoutUser_eq, URL.authorityText, shownAuthority]
    dsimp only
    rcases has with user | host | ⟨schemed, kept, path⟩
    · obtain ⟨info, isUser⟩ := Option.isSome_iff_exists.mp user
      simp [isUser, redactedUser]
    · cases url.user <;> simp [host, redactedUser]
    · cases url.user <;> simp [schemed, kept, path, redactedUser]
  have text : (withoutUser url).pathText = url.escapedPath := by
    have same : (withoutUser url).escapedPath = url.escapedPath := by
      rw [withoutUser_eq]
      rfl
    rw [URL.pathText, printed, same, if_neg fun all => all.2.1 (rooted.resolve_left all.1), if_neg fun all => by cases all.2.1]
  have opaque_ : (withoutUser url).opaquePart = [] := by
    rw [withoutUser_eq]
    exact noOpaque
  rw [redactedMain, URL.mainText, if_neg (not_not.mpr opaque_), printed, text, withoutUser_eq]
  rfl

/-- Otherwise the path stands behind the scheme. -/
theorem redactedMain_path (noOpaque : url.opaquePart = []) (lacks : ¬ HasAuthority url) :
    redactedMain url = schemeText url.scheme ++ shownPath url := by
  rw [HasAuthority, not_or, not_or, not_not, Option.not_isSome_iff_eq_none] at lacks
  obtain ⟨noUser, noHost, path⟩ := lacks
  have same : withoutUser url = url := by
    rw [withoutUser, if_neg (by simp [noUser])]
  have printed : url.authorityText = [] := by
    rw [URL.authorityText]
    split
    · rfl
    · rename_i schemed
      split
      · rfl
      · rename_i kept
        have noPath : url.path = [] := by
          by_contra given
          refine path ⟨fun none_ => schemed ⟨none_, noHost, noUser⟩, ?_, given⟩
          exact Bool.eq_false_iff.mpr fun omits => kept ⟨omits, noHost, noUser⟩
        simp [noUser, noHost, noPath]
  have text : url.pathText = shownPath url := by
    rw [URL.pathText, printed, shownPath, if_neg fun all => all.2.2 noHost]
    simp only [true_and]
  rw [redactedMain, same, URL.mainText, if_neg (not_not.mpr noOpaque), printed, text]
  rfl

end Shown

section Parsed

variable (parseHost : List Char → Option (List Char))

/-- What precedes the query of a URL that was read. -/
inductive MainForm (url : URL) : Prop where
  | schemeOnly (schemed : url.scheme ≠ []) (relative : url.opaquePart.head? ≠ some '/')
      (plain : url.opaquePart.all isPlain = true) (lacks : ¬ HasAuthority url)
      (noHost : url.host = []) (noPath : url.escapedPath = [])
  | pathOnly (noOpaque : url.opaquePart = []) (lacks : ¬ HasAuthority url)
      (noHost : url.host = []) (rooted : url.scheme ≠ [] → url.escapedPath.head? = some '/')
  | authority (noOpaque : url.opaquePart = []) (kept : url.omitHost = false)
      (rooted : url.escapedPath = [] ∨ url.escapedPath.head? = some '/')
      (named : url.scheme = [] → url.host = [] → url.user = none → url.escapedPath = [])
      (plain : url.host.all (fun c => isPlain c && c ≠ '/' && c ≠ '@') = true)

/-- What `Parse` returns. -/
structure ParsedURL (url : URL) : Prop where
  isScheme : IsScheme url.scheme
  unusual : url.rawPath = [] ∨ url.rawPath ≠ escape .path url.path
  isQuery : IsQuery (url.rawQuery, url.forceQuery)
  main : MainForm url

variable {parseHost} {url : URL} {text : List Char}

/-- What stands behind an authority is empty or starts with a slash. -/
theorem rooted_dropWhile (text : List Char) :
    text.dropWhile (· ≠ '/') = [] ∨ (text.dropWhile (· ≠ '/')).head? = some '/' := by
  have stop := List.head?_dropWhile_not (· ≠ '/') text
  cases behind : text.dropWhile (· ≠ '/') with
  | nil => exact .inl rfl
  | cons c more =>
      rw [behind] at stop
      exact .inr (by simpa using stop)

/-- A path that was set with a slash is printed with it. -/
theorem head_escapedPath {bytes : List UInt8} {raw : List Char}
    (set : setEscaped .path text = some (bytes, raw)) (isPath : url.path = bytes)
    (isRaw : url.rawPath = raw) (rooted : text.head? = some '/') :
    url.escapedPath.head? = some '/' := by
  subst isPath isRaw
  rw [(escapedPath_of_setEscaped set rooted).2]
  split
  · exact rooted
  · obtain ⟨more, rfl⟩ := List.head?_eq_some_iff.mp rooted
    have decodes := (escapedPath_of_setEscaped set rooted).1
    have bytes : utf8 ('/' :: more) = 0x2f :: utf8 more := rfl
    rw [bytes, unescapeBytes_plain (by decide)] at decodes
    obtain ⟨rest, -, isPath⟩ := Option.map_eq_some_iff.mp decodes
    rw [← isPath]
    rfl

/-- Only the empty text is decoded as nothing. -/
theorem eq_nil_of_unescapeBytes {bytes : List UInt8} (none_ : unescapeBytes bytes = some []) :
    bytes = [] := by
  cases bytes with
  | nil => rfl
  | cons byte rest =>
      unfold unescapeBytes at none_
      split at none_
      · split at none_
        · rename_i high low more
          cases isHigh : unhex high <;> cases isLow : unhex low <;>
            cases decoded : unescapeBytes more <;> simp [isHigh, isLow, decoded] at none_
        · cases none_
      · cases decoded : unescapeBytes rest <;> simp [decoded] at none_

/-- Only the empty path is printed as nothing. -/
theorem escapedPath_eq_nil_iff : url.escapedPath = [] ↔ url.path = [] := by
  have decodes := unescapeBytes_escapedPath url
  constructor
  · intro empty
    rw [empty] at decodes
    exact (Option.some_inj.mp decodes).symm
  · intro noPath
    rw [noPath] at decodes
    exact utf8_injective (eq_nil_of_unescapeBytes decodes)

/-- Query and the rest of a text that was read. -/
theorem isQuery_of_cutQuery {before : List Char} {query : List Char × Bool} (unended : '#' ∉ text)
    (visible : containsCTL text = false) (isCut : cutQuery text = (before, query)) :
    IsQuery query ∧ before.all isPlain = true := by
  have plain (noQuery : '?' ∉ before) (within : ∀ c ∈ before, c ∈ text) :
      before.all isPlain = true := by
    rw [List.all_eq_true]
    intro c member
    have shown := List.any_eq_false.mp visible c (within c member)
    have noMark : c ≠ '?' := fun same => noQuery (same ▸ member)
    have noHash : c ≠ '#' := fun same => unended (same ▸ within c member)
    simp [isPlain, noMark, noHash, Bool.eq_false_iff.mpr shown]
  rw [cutQuery] at isCut
  split at isCut
  · rename_i found
    obtain ⟨rfl, rfl⟩ := Prod.mk.inj isCut
    obtain ⟨noQuery, rfl⟩ := GoStrings.eq_of_cut found
    exact ⟨⟨List.not_mem_nil, rfl, fun _ => rfl⟩,
      plain noQuery fun c => List.mem_append_left _⟩
  · rename_i query' _ found
    obtain ⟨rfl, rfl⟩ := Prod.mk.inj isCut
    obtain ⟨noQuery, rfl⟩ := GoStrings.eq_of_cut found
    rw [containsCTL_append, Bool.or_eq_false_iff] at visible
    refine ⟨⟨fun member => unended ?_, visible.2, fun marked => by cases marked⟩,
      plain noQuery fun c => List.mem_append_left _⟩
    exact List.mem_append_right _ (List.mem_cons_of_mem _ member)
  · rename_i found
    obtain ⟨rfl, rfl⟩ := Prod.mk.inj isCut
    obtain ⟨noQuery, rfl⟩ := GoStrings.eq_of_cut_none found
    exact ⟨⟨List.not_mem_nil, rfl, fun _ => rfl⟩, plain noQuery fun _ member => member⟩

/-- An authority is a host, with a user in front of it or without. -/
theorem parseAuthority_cases {authority host : List Char}
    {user : Option (List UInt8 × Option (List UInt8))}
    (parsed : parseAuthority parseHost authority = some (user, host)) :
    (user = none ∧ parseHost authority = some host) ∨
      ∃ userinfo hostText, authority = userinfo ++ '@' :: hostText ∧ '@' ∉ hostText ∧
        user.isSome ∧ parseUserinfo userinfo = user ∧ parseHost hostText = some host := by
  unfold parseAuthority at parsed
  split at parsed
  · obtain ⟨host, isHost, isResult⟩ := Option.map_eq_some_iff.mp parsed
    obtain ⟨rfl, rfl⟩ := Prod.mk.inj isResult
    exact .inl ⟨rfl, isHost⟩
  · rename_i userinfo hostText isCut
    obtain ⟨absent, isText⟩ := GoStrings.eq_of_cutLast isCut
    obtain ⟨host, isHost, parsed⟩ := Option.bind_eq_some_iff.mp parsed
    obtain ⟨info, isInfo, isResult⟩ := Option.bind_eq_some_iff.mp parsed
    obtain ⟨rfl, rfl⟩ := Prod.mk.inj (Option.some_inj.mp isResult)
    exact .inr ⟨userinfo, hostText, isText, absent, rfl, isInfo, isHost⟩

/-- A text without a fragment is parsed as a URL that parsing can yield. -/
theorem parsedURL_of_parseWithoutFragment (hosts : HostSyntax parseHost) (unended : '#' ∉ text)
    (parsed : parseWithoutFragment parseHost text = some url) : ParsedURL url := by
  rcases parseWithoutFragment_cases parsed with
    rfl | ⟨scheme, rest, before, query, visible, found, isCut, hierarchy⟩
  · exact {
      isScheme := ⟨⟨rfl, fun _ _ same => by cases same⟩, rfl⟩
      unusual := .inl rfl
      isQuery := ⟨List.not_mem_nil, rfl, fun _ => rfl⟩
      main := .pathOnly rfl (by simp [HasAuthority, pathURL]) rfl fun schemed => absurd rfl schemed }
  have within : ∀ c ∈ rest, c ∈ text := by
    intro c member
    rcases getScheme_cases found with ⟨-, rfl⟩ | ⟨rfl, -⟩
    · exact member
    · exact List.mem_append_right _ (List.mem_cons_of_mem _ member)
  have restVisible : containsCTL rest = false :=
    List.any_eq_false.mpr fun c member => List.any_eq_false.mp visible c (within c member)
  obtain ⟨isQuery, plain⟩ :=
    isQuery_of_cutQuery (fun member => unended (within _ member)) restVisible isCut
  have isScheme := isScheme_of_getScheme found
  rcases parseHierarchy_cases hierarchy with ⟨schemed, relative, rfl⟩ |
    ⟨omitHost, path, set, rfl, rooted⟩ |
    ⟨authority, user, host, path, rfl, reads, isAuthority, set, rfl⟩
  · refine ⟨isScheme, .inl rfl, isQuery, .schemeOnly schemed relative plain ?_ rfl ?_⟩
    · simp [HasAuthority, opaqueURL]
    · exact escapedPath_eq_nil_iff.mpr rfl
  · refine ⟨isScheme, raw_of_setEscaped set, isQuery, .pathOnly rfl ?_ rfl fun schemed => ?_⟩
    · rintro (user | host | ⟨schemed, kept, -⟩)
      · cases user
      · exact host rfl
      · exact absurd ((rooted schemed).1.symm.trans kept) (by decide)
    · exact head_escapedPath set rfl rfl (rooted schemed).2
  · have isHost : ∃ hostText, parseHost hostText = some host := by
      rcases parseAuthority_cases isAuthority with ⟨-, isHost⟩ | ⟨_, _, -, -, -, -, isHost⟩
      · exact ⟨_, isHost⟩
      · exact ⟨_, isHost⟩
    obtain ⟨hostText, isHost⟩ := isHost
    refine ⟨isScheme, raw_of_setEscaped set, isQuery,
      .authority rfl rfl ?_ (fun unschemed noHost noUser => ?_) (hosts.plain isHost)⟩
    · rcases rooted_dropWhile authority with behind | slash
      · rw [behind] at set
        have noPath : [] = path.1 := congrArg Prod.fst (Option.some_inj.mp set)
        exact .inl (escapedPath_eq_nil_iff.mpr noPath.symm)
      · exact .inr (head_escapedPath set rfl rfl slash)
    · obtain rfl : host = [] := noHost
      obtain rfl : user = none := noUser
      have empty : authority.takeWhile (· ≠ '/') = [] := by
        rcases parseAuthority_cases isAuthority with ⟨-, isHost⟩ | ⟨_, _, -, -, isSome, -⟩
        · exact hosts.nonempty isHost
        · cases isSome
      have unrooted := reads.resolve_left (not_not.mpr unschemed)
      obtain rfl : authority = [] := by
        cases authority with
        | nil => rfl
        | cons c more =>
            have other : c ≠ '/' := fun same => unrooted (by rw [same]; rfl)
            rw [List.takeWhile_cons_of_pos (by simpa using other)] at empty
            cases empty
      have noPath : [] = path.1 := congrArg Prod.fst (Option.some_inj.mp set)
      exact escapedPath_eq_nil_iff.mpr noPath.symm

/-- The fragment changes nothing before it. -/
theorem ParsedURL.withFragment (parsed : ParsedURL url) (fragment : List UInt8)
    (rawFragment : List Char) : ParsedURL { url with fragment, rawFragment } := by
  refine ⟨parsed.isScheme, parsed.unusual, parsed.isQuery, ?_⟩
  cases parsed.main with
  | schemeOnly schemed relative plain lacks noHost noPath =>
      exact .schemeOnly schemed relative plain lacks noHost noPath
  | pathOnly noOpaque lacks noHost rooted => exact .pathOnly noOpaque lacks noHost rooted
  | authority noOpaque kept rooted named plain =>
      exact .authority noOpaque kept rooted named plain

/-- A text is parsed as a URL that parsing can yield. -/
theorem parsedURL_of_parseURL (hosts : HostSyntax parseHost)
    (parsed : parseURL parseHost text = some url) : ParsedURL url := by
  have unended {before : List Char} {rest : Option (List Char)}
      (isCut : GoStrings.cut '#' text = (before, rest)) : '#' ∉ before := by
    cases rest with
    | some fragment => exact (GoStrings.eq_of_cut isCut).1
    | none => exact (GoStrings.eq_of_cut_none isCut).1
  rw [parseURL] at parsed
  split at parsed
  · rename_i isCut
    exact parsedURL_of_parseWithoutFragment hosts (unended isCut) parsed
  · rename_i isCut
    exact parsedURL_of_parseWithoutFragment hosts (unended isCut) parsed
  · rename_i isCut
    obtain ⟨whole, isWhole, parsed⟩ := Option.bind_eq_some_iff.mp parsed
    obtain ⟨⟨fragment, rawFragment⟩, -, isResult⟩ := Option.bind_eq_some_iff.mp parsed
    obtain rfl := Option.some_inj.mp isResult
    exact (parsedURL_of_parseWithoutFragment hosts (unended isCut) isWhole).withFragment _ _

end Parsed

section Again

variable (parseHost : List Char → Option (List Char))

/-- An authority that redaction leaves as it is. -/
def IsShownAuthority (text : List Char) : Prop :=
  ∃ user host, parseAuthority parseHost text = some (user, host) ∧ shownAuthority user host = text

/-- The text of a redacted URL is read as that URL: its host is a host again, and what looks
like an authority in a URL without one is read and printed as one. -/
structure ReadsBack (url : URL) : Prop where
  host : parseHost url.host = some url.host
  path : ∀ rest, url.opaquePart = [] → ¬ HasAuthority url → url.escapedPath = '/' :: '/' :: rest →
    (url.scheme ≠ [] ∨ rest.head? ≠ some '/') →
    rest ≠ [] ∧ IsShownAuthority parseHost (rest.takeWhile (· ≠ '/'))

/-- The redacted URL is printed again as it was. -/
def PrintsAgain (url : URL) (query : List Char × Bool) : Prop :=
  ∃ back, parseMain parseHost (redactedMain url) query = some back ∧
    redactedMain back = redactedMain url

variable {parseHost} {url : URL} {query : List Char × Bool}

/-- A URL without authority and path is shown as its scheme and its opaque part. -/
theorem redactedMain_of_noPath (lacks : ¬ HasAuthority url) (noPath : url.escapedPath = []) :
    redactedMain url = schemeText url.scheme ++ url.opaquePart := by
  by_cases given : url.opaquePart = []
  · have empty : shownPath url = [] := by
      rw [shownPath, noPath, if_neg fun all => by cases all.2]
    rw [redactedMain_path given lacks, empty, given]
  · exact redactedMain_opaque given

/-- A URL of a scheme without a slash behind it is printed again. -/
theorem printsAgain_opaqueText (parsed : ParsedURL url) (schemed : url.scheme ≠ [])
    (relative : url.opaquePart.head? ≠ some '/') (lacks : ¬ HasAuthority url)
    (noPath : url.escapedPath = []) : PrintsAgain parseHost url query := by
  refine ⟨opaqueURL url.scheme url.opaquePart query, ?_, ?_⟩
  · rw [redactedMain_of_noPath lacks noPath]
    exact parseMain_opaque parsed.isScheme schemed relative
  · rw [redactedMain_of_noPath lacks noPath, redactedMain_of_noPath]
    · rfl
    · simp [HasAuthority, opaqueURL]
    · exact escapedPath_eq_nil_iff.mpr rfl

/-- Without a scheme the path is shown without a colon in its first segment. -/
theorem noColon_shownPath (url : URL) (unschemed : url.scheme = []) :
    ':' ∉ (GoStrings.cut '/' (shownPath url)).1 := by
  rw [shownPath]
  split
  · simp [GoStrings.cut]
  · rename_i plain
    exact fun member => plain ⟨unschemed, member⟩

/-- A path is shown as it is printed if that cannot be taken for a scheme. -/
theorem shownPath_of_noColon (noColon : url.scheme = [] →
    ':' ∉ (GoStrings.cut '/' url.escapedPath).1) : shownPath url = url.escapedPath :=
  if_neg fun all => noColon all.1 all.2

/-- What is shown of a path can be read as a path, and is printed again. -/
theorem exists_of_shownPath (parsed : ParsedURL url) :
    ∃ path, setEscaped .path (shownPath url) = some path ∧
      ∀ back : URL, back.path = path.1 → back.rawPath = path.2 →
        back.escapedPath = shownPath url := by
  have valid : validEncoded .path (shownPath url) = true := by
    have whole := validEncoded_escapedPath url
    rw [shownPath]
    split
    · exact whole
    · exact whole
  have notStar : shownPath url ≠ ['%', '2', 'A'] := by
    rw [shownPath]
    split
    · simp
    · exact escapedPath_ne_star parsed.unusual
  have decodes : ∃ bytes, unescapeBytes (utf8 (shownPath url)) = some bytes := by
    have whole := unescapeBytes_escapedPath url
    rw [shownPath]
    split
    · have dotted : utf8 ('.' :: '/' :: url.escapedPath) =
          0x2e :: 0x2f :: utf8 url.escapedPath := rfl
      rw [dotted, unescapeBytes_plain (by decide), unescapeBytes_plain (by decide), whole]
      exact ⟨_, rfl⟩
    · exact ⟨_, whole⟩
  obtain ⟨bytes, decodes⟩ := decodes
  obtain ⟨raw, set⟩ := exists_setEscaped decodes
  exact ⟨(bytes, raw), set, fun back => escapedPath_of_valid set valid notStar⟩

/-- A path that no authority can be read from is printed again. -/
theorem printsAgain_path (parsed : ParsedURL url) (noOpaque : url.opaquePart = [])
    (lacks : ¬ HasAuthority url) (rooted : url.scheme ≠ [] → url.escapedPath.head? = some '/')
    (isPath : ∀ authority, shownPath url = '/' :: '/' :: authority →
      url.scheme = [] ∧ authority.head? = some '/') : PrintsAgain parseHost url query := by
  obtain ⟨path, set, printed⟩ := exists_of_shownPath parsed
  have shownRooted (schemed : url.scheme ≠ []) : (shownPath url).head? = some '/' := by
    rw [shownPath_of_noColon fun unschemed => absurd unschemed schemed]
    exact rooted schemed
  obtain ⟨omitHost, omits, reads⟩ :=
    parseMain_path parseHost query parsed.isScheme set shownRooted (noColon_shownPath url) isPath
  refine ⟨pathURL url.scheme none [] omitHost query path, ?_, ?_⟩
  · rw [redactedMain_path noOpaque lacks]
    exact reads
  · have same := printed (pathURL url.scheme none [] omitHost query path) rfl rfl
    have backLacks : ¬ HasAuthority (pathURL url.scheme none [] omitHost query path) := by
      rintro (user | host | ⟨schemed, kept, -⟩)
      · cases user
      · exact host rfl
      · exact absurd ((omits schemed).symm.trans kept) (by decide)
    rw [redactedMain_path rfl backLacks, redactedMain_path noOpaque lacks, shownPath_of_noColon]
    · rw [same]
      rfl
    · intro unschemed
      rw [same]
      exact noColon_shownPath url unschemed

/-- What stands behind an authority is a path of its own. -/
theorem exists_of_dropWhile {text : List Char} {bytes : List UInt8}
    (decodes : unescapeBytes (utf8 text) = some bytes) (valid : validEncoded .path text = true) :
    ∃ path, setEscaped .path (text.dropWhile (· ≠ '/')) = some path ∧
      ∀ back : URL, back.path = path.1 → back.rawPath = path.2 →
        back.escapedPath = text.dropWhile (· ≠ '/') := by
  have whole := List.takeWhile_append_dropWhile (p := (· ≠ '/')) (l := text)
  have stop := List.head?_dropWhile_not (· ≠ '/') text
  have validRest : validEncoded .path (text.dropWhile (· ≠ '/')) = true := by
    rw [← whole, validEncoded_append, Bool.and_eq_true] at valid
    exact valid.2
  cases behind : text.dropWhile (· ≠ '/') with
  | nil =>
      refine ⟨([], []), rfl, fun back noPath _ => ?_⟩
      exact escapedPath_eq_nil_iff.mpr noPath
  | cons c more =>
      rw [behind] at stop validRest
      obtain rfl : c = '/' := by simpa using stop
      have cut : utf8 text = utf8 (text.takeWhile (· ≠ '/')) ++ 0x2f :: utf8 more := by
        conv_lhs => rw [← whole, behind]
        rw [utf8, List.flatMap_append]
        rfl
      rw [cut, unescapeBytes_slash] at decodes
      obtain ⟨_, -, decodes⟩ := Option.bind_eq_some_iff.mp decodes
      obtain ⟨after, isAfter, -⟩ := Option.map_eq_some_iff.mp decodes
      have slash : utf8 ('/' :: more) = 0x2f :: utf8 more := rfl
      have rooted : unescapeBytes (utf8 ('/' :: more)) = some (0x2f :: after) := by
        rw [slash, unescapeBytes_plain (by decide), isAfter]
        rfl
      obtain ⟨raw, set⟩ := exists_setEscaped rooted
      exact ⟨(0x2f :: after, raw), set,
        fun back => escapedPath_of_valid set validRest (by simp)⟩

/-- What is read behind two slashes is printed as the path was, exactly if the authority is
one that redaction leaves as it is. -/
theorem redactedMain_back_iff {scheme rest host : List Char} (nonempty : rest ≠ [])
    (reads : scheme ≠ [] ∨ rest.head? ≠ some '/')
    {user : Option (List UInt8 × Option (List UInt8))} {path : List UInt8 × List Char}
    (printed : ∀ back : URL, back.path = path.1 → back.rawPath = path.2 →
      back.escapedPath = rest.dropWhile (· ≠ '/')) :
    redactedMain (pathURL scheme user host false query path) =
        schemeText scheme ++ '/' :: '/' :: rest ↔
      shownAuthority user host = rest.takeWhile (· ≠ '/') := by
  have whole := List.takeWhile_append_dropWhile (p := (· ≠ '/')) (l := rest)
  have isPath := printed (pathURL scheme user host false query path) rfl rfl
  by_cases has : HasAuthority (pathURL scheme user host false query path)
  · have rooted := rooted_dropWhile rest
    rw [← isPath] at rooted
    rw [redactedMain_authority rfl has rooted, isPath]
    constructor
    · intro same
      have slashes := (List.cons_inj_right _).mp (List.append_cancel_left same)
      have behind := (List.cons_inj_right _).mp slashes
      exact List.append_cancel_right (behind.trans whole.symm)
    · intro same
      have behind : shownAuthority user host ++ rest.dropWhile (· ≠ '/') = rest := by
        rw [same, whole]
      exact congrArg (fun text => schemeText scheme ++ '/' :: '/' :: text) behind
  · rw [redactedMain_path rfl has]
    refine iff_of_false ?_ ?_
    · intro same
      have path := List.append_cancel_left same
      rw [shownPath] at path
      split at path
      · cases path
      · have shorter := (List.dropWhile_sublist (· ≠ '/') (l := rest)).length_le
        rw [isPath] at path
        rw [path, List.length_cons, List.length_cons] at shorter
        omega
    · intro same
      rw [HasAuthority, not_or, not_or, not_not, Option.not_isSome_iff_eq_none] at has
      obtain ⟨noUser, noHost, path⟩ := has
      obtain rfl : user = none := noUser
      obtain rfl : host = [] := noHost
      have behind : rest.dropWhile (· ≠ '/') = rest := by
        rw [← same] at whole
        exact whole
      have slash := (behind ▸ rooted_dropWhile rest).resolve_left nonempty
      refine path ⟨reads.resolve_right (not_not.mpr slash), rfl, fun noPath => nonempty ?_⟩
      rw [← behind, ← isPath]
      exact escapedPath_eq_nil_iff.mpr noPath

/-- A path that looks like an authority is printed again, exactly if redaction leaves that
authority as it is. -/
theorem printsAgain_iff_of_slashes (parsed : ParsedURL url) (noOpaque : url.opaquePart = [])
    (lacks : ¬ HasAuthority url) {rest : List Char} (slashes : url.escapedPath = '/' :: '/' :: rest)
    (reads : url.scheme ≠ [] ∨ rest.head? ≠ some '/') (hosts : HostSyntax parseHost) :
    PrintsAgain parseHost url query ↔
      rest ≠ [] ∧ IsShownAuthority parseHost (rest.takeWhile (· ≠ '/')) := by
  have shown : redactedMain url = schemeText url.scheme ++ '/' :: '/' :: rest := by
    rw [redactedMain_path noOpaque lacks, shownPath_of_noColon, slashes]
    rw [slashes]
    exact fun _ => noColon_of_slashes rest
  obtain ⟨path, set, printed⟩ : ∃ path, setEscaped .path (rest.dropWhile (· ≠ '/')) = some path ∧
      ∀ back : URL, back.path = path.1 → back.rawPath = path.2 →
        back.escapedPath = rest.dropWhile (· ≠ '/') := by
    have decodes := unescapeBytes_escapedPath url
    have valid := validEncoded_escapedPath url
    rw [slashes] at decodes valid
    have cut : utf8 ('/' :: '/' :: rest) = 0x2f :: 0x2f :: utf8 rest := rfl
    rw [cut, unescapeBytes_plain (by decide), unescapeBytes_plain (by decide)] at decodes
    obtain ⟨_, decodes, -⟩ := Option.map_eq_some_iff.mp decodes
    obtain ⟨bytes, decodes, -⟩ := Option.map_eq_some_iff.mp decodes
    exact exists_of_dropWhile decodes valid
  rw [PrintsAgain, shown, parseMain_authority parsed.isScheme.toIsSchemeName reads,
    parsed.isScheme.lower, set]
  by_cases nonempty : rest = []
  · subst nonempty
    refine iff_of_false ?_ fun all => all.1 rfl
    rintro ⟨back, isBack, same⟩
    have isAuthority : parseAuthority parseHost [] = some (none, []) := by
      rw [parseAuthority, GoStrings.cutLast_of_not_mem List.not_mem_nil]
      dsimp only
      rw [hosts.empty]
      rfl
    rw [List.takeWhile_nil, isAuthority] at isBack
    obtain rfl := Option.some_inj.mp isBack
    have noPath := printed (pathURL url.scheme none [] false query path) rfl rfl
    rw [redactedMain_of_noPath _ noPath] at same
    · cases List.append_cancel_left same
    · rintro (user | host | ⟨-, -, given⟩)
      · cases user
      · exact host rfl
      · exact given (escapedPath_eq_nil_iff.mp noPath)
  · constructor
    · rintro ⟨back, isBack, same⟩
      obtain ⟨⟨user, host⟩, isAuthority, isBack⟩ := Option.bind_eq_some_iff.mp isBack
      obtain rfl := Option.some_inj.mp isBack
      exact ⟨nonempty, user, host, isAuthority,
        (redactedMain_back_iff nonempty reads printed).mp same⟩
    · rintro ⟨-, user, host, isAuthority, same⟩
      refine ⟨pathURL url.scheme user host false query path, ?_,
        (redactedMain_back_iff nonempty reads printed).mpr same⟩
      rw [isAuthority]
      rfl

/-- The authority ends at the first slash. -/
theorem takeWhile_authority {authority path : List Char} (noSlash : '/' ∉ authority)
    (rooted : path = [] ∨ path.head? = some '/') :
    (authority ++ path).takeWhile (· ≠ '/') = authority ∧
      (authority ++ path).dropWhile (· ≠ '/') = path := by
  have all : ∀ c ∈ authority, decide (c ≠ '/') = true :=
    fun c member => decide_eq_true fun same => noSlash (same ▸ member)
  rcases rooted with rfl | slash
  · rw [List.append_nil]
    exact ⟨List.takeWhile_eq_self_iff.mpr all, List.dropWhile_eq_nil_iff.mpr all⟩
  · obtain ⟨more, rfl⟩ := List.head?_eq_some_iff.mp slash
    rw [takeWhile_append_stop (by decide), dropWhile_append_stop (by decide),
      List.takeWhile_eq_self_iff.mpr all, List.dropWhile_eq_nil_iff.mpr all]
    exact ⟨rfl, rfl⟩

/-- A redacted authority is read as its host with the redacted user info. -/
theorem parseAuthority_shownAuthority (user : Option (List UInt8 × Option (List UInt8)))
    {host : List Char} (noUser : '@' ∉ host) :
    parseAuthority parseHost (shownAuthority user host) =
      (parseHost host).map fun again => (user.map fun _ => (utf8 redacted.toList, none), again) := by
  rw [shownAuthority, parseAuthority]
  cases user with
  | none =>
      rw [if_neg (by simp), List.nil_append, GoStrings.cutLast_of_not_mem noUser]
      rfl
  | some info =>
      have isInfo : parseUserinfo redactedUser = some (utf8 redacted.toList, none) := by
        decide +kernel
      rw [if_pos (by simp), List.append_assoc, List.singleton_append, GoStrings.cutLast_append noUser]
      dsimp only
      rw [isInfo]
      cases parseHost host <;> rfl

/-- An authority that is printed is read as one, exactly if its host is. -/
theorem printsAgain_iff_of_authority (hosts : HostSyntax parseHost) (parsed : ParsedURL url)
    (noOpaque : url.opaquePart = []) (has : HasAuthority url)
    (rooted : url.escapedPath = [] ∨ url.escapedPath.head? = some '/')
    (plain : url.host.all (fun c => isPlain c && c ≠ '/' && c ≠ '@') = true) :
    PrintsAgain parseHost url query ↔ parseHost url.host = some url.host := by
  have noAt : '@' ∉ url.host := fun member => by
    simpa using List.all_eq_true.mp plain _ member
  have noSlash : '/' ∉ shownAuthority url.user url.host := by
    have inUser : '/' ∉ if url.user.isSome then redactedUser ++ ['@'] else [] := by
      split <;> decide +kernel
    rw [shownAuthority, List.mem_append, not_or]
    exact ⟨inUser, fun member => by simpa using List.all_eq_true.mp plain _ member⟩
  have reads : url.scheme ≠ [] ∨
      (shownAuthority url.user url.host ++ url.escapedPath).head? ≠ some '/' := by
    by_cases schemed : url.scheme = []
    · have nonempty : shownAuthority url.user url.host ≠ [] := by
        rcases has with user | host | named
        · simp [shownAuthority, user]
        · simp [shownAuthority, host]
        · exact absurd schemed named.1
      obtain ⟨c, more, isAuthority⟩ := List.exists_cons_of_ne_nil nonempty
      rw [isAuthority] at noSlash ⊢
      refine .inr fun slash => noSlash ?_
      rw [← Option.some_inj.mp slash]
      exact List.mem_cons_self
    · exact .inl schemed
  obtain ⟨taken, dropped⟩ := takeWhile_authority noSlash rooted
  obtain ⟨raw, set⟩ := exists_setEscaped (unescapeBytes_escapedPath url)
  have printed : ∀ back : URL, back.path = url.path → back.rawPath = raw →
      back.escapedPath = url.escapedPath := fun _ =>
    escapedPath_of_valid set (validEncoded_escapedPath url) (escapedPath_ne_star parsed.unusual)
  rw [PrintsAgain, redactedMain_authority noOpaque has rooted,
    parseMain_authority parsed.isScheme.toIsSchemeName reads, taken, dropped, parsed.isScheme.lower,
    parseAuthority_shownAuthority url.user noAt, set]
  have again {host : List Char} (isHost : parseHost url.host = some host) :
      redactedMain (pathURL url.scheme (url.user.map fun _ => (utf8 redacted.toList, none)) host
          false query (url.path, raw)) =
        schemeText url.scheme ++ '/' :: '/' :: (shownAuthority url.user host ++ url.escapedPath) := by
    have isPath := printed (pathURL url.scheme (url.user.map fun _ => (utf8 redacted.toList, none))
      host false query (url.path, raw)) rfl rfl
    rw [redactedMain_authority rfl _ (isPath ▸ rooted), isPath, shownAuthority]
    · simp [pathURL, shownAuthority]
    · rcases has with user | given | ⟨schemed, -, path⟩
      · exact .inl (by simpa [pathURL] using user)
      · refine .inr (.inl fun none_ => given ?_)
        obtain rfl : host = [] := none_
        exact hosts.nonempty isHost
      · exact .inr (.inr ⟨schemed, rfl, path⟩)
  constructor
  · rintro ⟨back, isBack, same⟩
    obtain ⟨parts, isParts, isBack⟩ := Option.bind_eq_some_iff.mp isBack
    obtain ⟨host, isHost, rfl⟩ := Option.map_eq_some_iff.mp isParts
    obtain rfl := Option.some_inj.mp isBack
    rw [again isHost] at same
    have slashes := (List.cons_inj_right _).mp (List.append_cancel_left same)
    have authority := List.append_cancel_right ((List.cons_inj_right _).mp slashes)
    rw [isHost, List.append_cancel_left authority]
  · intro isHost
    refine ⟨_, ?_, again isHost⟩
    rw [isHost]
    rfl

/-- A URL of a path only prints again exactly if it is read back. -/
theorem printsAgain_iff_of_path (hosts : HostSyntax parseHost) (parsed : ParsedURL url)
    (noOpaque : url.opaquePart = []) (lacks : ¬ HasAuthority url) (noHost : url.host = [])
    (rooted : url.scheme ≠ [] → url.escapedPath.head? = some '/') :
    PrintsAgain parseHost url query ↔ ReadsBack parseHost url := by
  have isHost : parseHost url.host = some url.host := by rw [noHost, hosts.empty]
  by_cases looks : ∃ rest, url.escapedPath = '/' :: '/' :: rest ∧
      (url.scheme ≠ [] ∨ rest.head? ≠ some '/')
  · obtain ⟨rest, slashes, reads⟩ := looks
    rw [printsAgain_iff_of_slashes parsed noOpaque lacks slashes reads hosts]
    constructor
    · intro shown
      refine ⟨isHost, fun other _ _ isOther _ => ?_⟩
      cases slashes.symm.trans isOther
      exact shown
    · intro back
      exact back.path rest noOpaque lacks slashes reads
  · refine iff_of_true (printsAgain_path parsed noOpaque lacks rooted fun authority shown => ?_)
      ⟨isHost, fun rest _ _ slashes reads => absurd ⟨rest, slashes, reads⟩ looks⟩
    have slashes : url.escapedPath = '/' :: '/' :: authority := by
      rw [shownPath] at shown
      split at shown
      · cases shown
      · exact shown
    have unread := fun reads => looks ⟨authority, slashes, reads⟩
    rwa [imp_false, not_or, not_not, not_not] at unread

/-- A URL without host and path is read back. -/
theorem readsBack_of_noPath (hosts : HostSyntax parseHost) (noHost : url.host = [])
    (noPath : url.escapedPath = []) : ReadsBack parseHost url := by
  refine ⟨by rw [noHost, hosts.empty], fun rest _ _ slashes => ?_⟩
  rw [noPath] at slashes
  cases slashes

variable (query) in
/-- A redacted URL is printed again exactly if it is read back. -/
theorem printsAgain_iff (hosts : HostSyntax parseHost) (parsed : ParsedURL url) :
    PrintsAgain parseHost url query ↔ ReadsBack parseHost url := by
  cases parsed.main with
  | schemeOnly schemed relative plain lacks noHost noPath =>
      exact iff_of_true (printsAgain_opaqueText parsed schemed relative lacks noPath)
        (readsBack_of_noPath hosts noHost noPath)
  | pathOnly noOpaque lacks noHost rooted =>
      exact printsAgain_iff_of_path hosts parsed noOpaque lacks noHost rooted
  | authority noOpaque kept rooted named plain =>
      by_cases has : HasAuthority url
      · rw [printsAgain_iff_of_authority hosts parsed noOpaque has rooted plain]
        constructor
        · intro isHost
          exact ⟨isHost, fun _ _ lacks => absurd has lacks⟩
        · exact ReadsBack.host
      · have lacks := has
        rw [HasAuthority, not_or, not_or, not_not, Option.not_isSome_iff_eq_none] at lacks
        obtain ⟨noUser, noHost, path⟩ := lacks
        by_cases schemed : url.scheme = []
        · exact printsAgain_iff_of_path hosts parsed noOpaque has noHost
            fun named => absurd schemed named
        · have noPath : url.escapedPath = [] := by
            rw [escapedPath_eq_nil_iff]
            by_contra given
            exact path ⟨schemed, kept, given⟩
          refine iff_of_true (printsAgain_opaqueText parsed schemed ?_ has noPath)
            (readsBack_of_noPath hosts noHost noPath)
          rw [noOpaque]
          exact fun slash => by cases slash

end Again

section Twice

variable {parseHost : List Char → Option (List Char)} {url : URL} {query : List Char}

/-- The characters of a scheme are plain. -/
theorem isPlain_of_isSchemeChar {c : Char} (isChar : isSchemeChar c = true) :
    isPlain c = true := by
  have ascii : c.toNat < 128 := by
    rcases (Bool.or_eq_true _ _).mp isChar with alphanum | listed
    · exact lt_of_isAlphanum alphanum
    · exact lt_of_mem (by decide) (of_decide_eq_true listed)
  have all : ∀ n < 128, isSchemeChar (Char.ofNat n) = true → isPlain (Char.ofNat n) = true := by
    decide +kernel
  have here := all c.toNat ascii
  rw [Char.ofNat_toNat] at here
  exact here isChar

/-- A scheme is plain. -/
theorem plain_schemeText {scheme : List Char} (isName : IsSchemeName scheme) :
    (schemeText scheme).all isPlain = true := by
  have plain : scheme.all isPlain = true := List.all_eq_true.mpr fun c member =>
    isPlain_of_isSchemeChar (List.all_eq_true.mp isName.chars c member)
  rw [schemeText]
  split
  · rw [List.all_append, plain]
    decide
  · rfl

/-- Neither query nor fragment is seen in the main part. -/
theorem plain_redactedMain (parsed : ParsedURL url) : (redactedMain url).all isPlain = true := by
  have scheme := plain_schemeText parsed.isScheme.toIsSchemeName
  have path := plain_of_validEncoded (validEncoded_escapedPath url)
  have shown : (shownPath url).all isPlain = true := by
    rw [shownPath]
    split
    · exact path
    · exact path
  have without (noOpaque : url.opaquePart = []) (lacks : ¬ HasAuthority url) :
      (redactedMain url).all isPlain = true := by
    rw [redactedMain_path noOpaque lacks, List.all_append, scheme, shown]
    rfl
  cases parsed.main with
  | schemeOnly schemed relative plain lacks noHost noPath =>
      rw [redactedMain_of_noPath lacks noPath, List.all_append, scheme, plain]
      rfl
  | pathOnly noOpaque lacks => exact without noOpaque lacks
  | authority noOpaque kept rooted named plain =>
      by_cases has : HasAuthority url
      · have user : (if url.user.isSome then redactedUser ++ ['@'] else []).all isPlain = true := by
          split <;> decide +kernel
        have host : url.host.all isPlain = true := by
          rw [List.all_eq_true] at plain ⊢
          intro c member
          have here := plain c member
          simp only [Bool.and_eq_true] at here
          exact here.1.1
        have slashes : ['/', '/'].all isPlain = true := by decide
        rw [redactedMain_authority noOpaque has rooted, List.all_append, scheme]
        have parts : ('/' :: '/' :: (shownAuthority url.user url.host ++ url.escapedPath)) =
            ['/', '/'] ++ (shownAuthority url.user url.host ++ url.escapedPath) := rfl
        rw [parts, List.all_append, slashes, List.all_append, path, shownAuthority, List.all_append,
          user, host]
        rfl
      · exact without noOpaque has

/-- A redacted query is plain. -/
theorem plain_redactedQuery (keys : List (List UInt8)) :
    (redactedQuery keys).all isPlain = true := by
  have setting (key : List UInt8) :
      (queryEscapeBytes key ++ '=' :: redacted.toList).all isPlain = true := by
    have isKey : (queryEscapeBytes key).all isPlain = true := by
      rw [List.all_eq_true]
      intro c member
      rcases mem_queryEscapeBytes member with rfl | rfl | unreserved
      · rfl
      · rfl
      · exact isPlain_of_valid (by rw [Encoding.keeps, unreserved, Bool.true_or, Bool.or_true])
    rw [List.all_append, isKey]
    decide
  rw [redactedQuery]
  induction keys with
  | nil => rfl
  | cons key rest ih =>
      rw [List.map_cons]
      cases rest with
      | nil =>
          rw [List.map_nil, List.intercalate_singleton]
          exact setting key
      | cons next rest =>
          rw [List.map_cons] at ih ⊢
          rw [List.intercalate_cons_cons, List.all_append, List.all_append, setting key, ih]
          decide

/-- What is shown of a query is a query. -/
theorem isQuery_shownQuery {force : Bool} (isQuery : IsQuery (query, force)) :
    IsQuery (shownQuery query, force) := by
  rw [shownQuery]
  split
  · exact isQuery
  · rename_i keyed
    have plain := plain_redactedQuery (queryKeys query)
    refine ⟨not_mem_of_plain plain (by decide), containsCTL_of_plain plain, fun forced => ?_⟩
    obtain rfl : query = [] := isQuery.marked forced
    exact absurd rfl keyed

/-- A query that is shown twice is shown as once. -/
theorem shownQuery_shownQuery (query : List Char) :
    shownQuery (shownQuery query) = shownQuery query := by
  rw [shownQuery, queryKeys_shownQuery]
  split
  · rfl
  · rename_i keyed
    rw [shownQuery, if_neg keyed]

/-- The query is kept as it was cut off. -/
theorem query_of_parseMain {main : List Char} {query : List Char × Bool}
    (parsed : parseMain parseHost main query = some url) :
    url.rawQuery = query.1 ∧ url.forceQuery = query.2 := by
  obtain ⟨_, -, hierarchy⟩ := Option.bind_eq_some_iff.mp parsed
  rcases parseHierarchy_cases hierarchy with ⟨-, -, rfl⟩ | ⟨_, _, -, rfl, -⟩ |
    ⟨_, _, _, _, -, -, -, -, rfl⟩ <;> exact ⟨rfl, rfl⟩

/-- The fragment plays no part in what is shown before it. -/
theorem redactedMain_withFragment (url : URL) (fragment : List UInt8) (rawFragment : List Char) :
    redactedMain { url with fragment, rawFragment } = redactedMain url := by
  rw [redactedMain, redactedMain, withoutUser_eq, withoutUser_eq]
  rfl

/-- The text of a redacted URL. -/
def redactedText (url : URL) : List Char :=
  redactedMain url ++ queryText (shownQuery url.rawQuery, url.forceQuery) ++ url.fragmentText

/-- A URL that parses is shown as its redacted text. -/
theorem redactURL_eq {raw : String} (parsed : parseURL parseHost raw.toList = some url) :
    redactURL parseHost raw = .ofList (redactedText url) := by
  have fragment : (withoutUser url).fragmentText = url.fragmentText := by
    rw [withoutUser_eq]
    rfl
  have force : (withoutUser url).forceQuery = url.forceQuery := by
    rw [withoutUser_eq]
  rw [redactURL_of_parseURL parsed, redactedText, ← fragment, ← force]
  rfl

variable (parseHost) in
/-- Main part and query of a redacted URL are read on their own, and the query is shown again. -/
theorem parseWithoutFragment_redacted (parsed : ParsedURL url) :
    Option.Rel (fun back main => redactedMain back = redactedMain main ∧
        queryText (shownQuery back.rawQuery, back.forceQuery) =
          queryText (shownQuery url.rawQuery, url.forceQuery))
      (parseWithoutFragment parseHost
        (redactedMain url ++ queryText (shownQuery url.rawQuery, url.forceQuery)))
      (parseMain parseHost (redactedMain url) (shownQuery url.rawQuery, url.forceQuery)) := by
  by_cases star : redactedMain url ++ queryText (shownQuery url.rawQuery, url.forceQuery) = ['*']
  · rcases queryText_head (shownQuery url.rawQuery, url.forceQuery) with none_ | ⟨tail, isTail⟩
    · rw [none_, List.append_nil] at star ⊢
      rw [star]
      exact .some ⟨rfl, rfl⟩
    · have mark : '?' ∈ ['*'] := by
        rw [← star, isTail]
        exact List.mem_append_right _ List.mem_cons_self
      cases List.mem_singleton.mp mark
  · rw [parseWithoutFragment_append (plain_redactedMain parsed)
      (isQuery_shownQuery parsed.isQuery) star]
    cases isMain : parseMain parseHost (redactedMain url)
      (shownQuery url.rawQuery, url.forceQuery) with
    | none => exact .none
    | some main =>
        obtain ⟨query, force⟩ := query_of_parseMain isMain
        refine .some ⟨rfl, ?_⟩
        rw [query, force, shownQuery_shownQuery]

/-- The answer to a text that is no URL is a URL itself. -/
theorem parseURL_redacted (parseHost : List Char → Option (List Char)) :
    ∃ url, parseURL parseHost redacted.toList = some url ∧
      redactedText url = redacted.toList := by
  have unended : '#' ∉ redacted.toList := by decide
  have plain : redacted.toList.all isPlain = true := by decide
  have noColon : ':' ∉ (GoStrings.cut '/' redacted.toList).1 := by decide
  have decodes : unescapeBytes (utf8 redacted.toList) = some (utf8 redacted.toList) := by
    decide +kernel
  obtain ⟨raw, set⟩ := exists_setEscaped decodes
  have isPath (authority : List Char) (slashes : redacted.toList = '/' :: '/' :: authority) :
      ([] : List Char) = [] ∧ authority.head? = some '/' := by
    have head : redacted.toList.head? = some '/' := by rw [slashes]; rfl
    exact absurd head (by decide)
  obtain ⟨omitHost, -, reads⟩ := parseMain_path parseHost ([], false)
    ⟨⟨rfl, fun _ _ same => by cases same⟩, rfl⟩ set (fun schemed => absurd rfl schemed)
    (fun _ => noColon) isPath
  have isQuery : IsQuery ([], false) := ⟨List.not_mem_nil, rfl, fun _ => rfl⟩
  have whole : redacted.toList = redacted.toList ++ queryText ([], false) := by decide
  refine ⟨pathURL [] none [] omitHost ([], false) (utf8 redacted.toList, raw), ?_, ?_⟩
  · rw [parseURL, GoStrings.cut_of_not_mem unended]
    dsimp only
    rw [whole, parseWithoutFragment_append plain isQuery (by decide), ← whole]
    exact reads
  · have printed : ∀ back : URL, back.path = utf8 redacted.toList → back.rawPath = raw →
        back.escapedPath = redacted.toList :=
      fun _ => escapedPath_of_valid set (by decide) (by decide)
    have isPath := printed
      (pathURL [] none [] omitHost ([], false) (utf8 redacted.toList, raw)) rfl rfl
    have noFragment : queryText (shownQuery [], false) = [] := rfl
    rw [redactedText, redactedMain_path rfl (by simp [HasAuthority, pathURL]),
      shownPath_of_noColon fun _ => by rw [isPath]; exact noColon, isPath]
    change redacted.toList ++ queryText (shownQuery [], false) ++ [] = redacted.toList
    rw [noFragment, List.append_nil, List.append_nil]

/-- Redacting twice changes nothing, exactly if the redacted URL is read back. -/
theorem redactURL_redactURL_iff (hosts : HostSyntax parseHost) {raw : String}
    (parsed : parseURL parseHost raw.toList = some url) :
    redactURL parseHost (redactURL parseHost raw) = redactURL parseHost raw ↔
      ReadsBack parseHost url := by
  have isParsed := parsedURL_of_parseURL hosts parsed
  have plain := plain_redactedMain isParsed
  have isQuery := isQuery_shownQuery isParsed.isQuery
  have unended : '#' ∉ redactedMain url ++ queryText (shownQuery url.rawQuery, url.forceQuery) := by
    rw [List.mem_append, not_or]
    refine ⟨not_mem_of_plain plain (by decide), ?_⟩
    rw [queryText]
    split
    · rw [List.mem_cons, not_or]
      exact ⟨by decide, isQuery.unended⟩
    · exact List.not_mem_nil
  obtain ⟨raw', sameFragment, whole⟩ := parseURL_append parseHost unended url
  have before := parseWithoutFragment_redacted parseHost isParsed
  rw [← redactedText] at whole
  rw [redactURL_eq parsed,
    ← printsAgain_iff (shownQuery url.rawQuery, url.forceQuery) hosts isParsed, PrintsAgain]
  revert before whole
  generalize parseWithoutFragment parseHost
    (redactedMain url ++ queryText (shownQuery url.rawQuery, url.forceQuery)) = read
  generalize parseMain parseHost (redactedMain url) (shownQuery url.rawQuery, url.forceQuery) = main
  intro whole before
  cases before with
  | none =>
      refine iff_of_false ?_ ?_
      · intro same
        rw [redactURL, String.toList_ofList, whole] at same
        have text : redactedText url = redacted.toList := by
          rw [← String.toList_ofList (l := redactedText url), ← same]
          rfl
        obtain ⟨_, parses, -⟩ := parseURL_redacted parseHost
        rw [text, parses] at whole
        exact Option.some_ne_none _ whole
      · rintro ⟨_, isMain, -⟩
        exact Option.some_ne_none _ isMain.symm
  | @some back main same =>
      obtain ⟨sameMain, sameQuery⟩ := same
      rw [← String.toList_ofList (l := redactedText url)] at whole
      have again := redactURL_eq whole
      have text : redactedText { back with fragment := url.fragment, rawFragment := raw' } =
          redactedMain back ++ queryText (shownQuery back.rawQuery, back.forceQuery) ++
            url.fragmentText := by
        rw [redactedText, redactedMain_withFragment, URL.fragmentText, URL.fragmentText]
        dsimp only
        split
        · rename_i shown
          rw [sameFragment shown]
        · rfl
      rw [again, String.ofList_inj]
      dsimp only
      rw [text, redactedText]
      rw [sameMain, sameQuery, List.append_left_inj, List.append_left_inj]
      constructor
      · intro printed
        exact ⟨main, rfl, printed⟩
      · rintro ⟨_, isMain, printed⟩
        rw [Option.some_inj.mp isMain]
        exact printed

end Twice

end Restitch.Reqlog
