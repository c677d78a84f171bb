import Restitch.Reqlog.RedactionStable

/-!
# Two URLs that differ in secrets

What `RedactURL` tells apart of two texts of URLs with other user info and other values in the
query.
-/

namespace Restitch.Reqlog

open Restitch.Http Restitch.Std

/-- The text of a URL before its query. -/
def mainPart (raw : List Char) : List Char := (GoStrings.cut '?' (GoStrings.cut '#' raw).1).1

/-- The query in the text of a URL, if there is one. -/
def queryPart (raw : List Char) : Option (List Char) :=
  (GoStrings.cut '?' (GoStrings.cut '#' raw).1).2

/-- The keys of the settings of a query, as they are written. -/
def writtenKeys (query : List Char) : List (List Char) :=
  (query.splitOn '&').map fun setting => (GoStrings.cut '=' setting).1

/-- User info in front of a host, if there is one. -/
def userinfoText : Option (List Char) → List Char
  | some userinfo => userinfo ++ ['@']
  | none => []

/-- Two texts before queries that are the same but for user info. -/
inductive SameButUserinfo : List Char → List Char → Prop where
  | same (main : List Char) : SameButUserinfo main main
  | userinfo {scheme rest : List Char} {one other : Option (List Char)}
      (isName : IsSchemeName scheme) (isOne : '/' ∉ userinfoText one)
      (isOther : '/' ∉ userinfoText other) (isHost : '@' ∉ rest.takeWhile (· ≠ '/')) :
      SameButUserinfo (schemeText scheme ++ '/' :: '/' :: (userinfoText one ++ rest))
        (schemeText scheme ++ '/' :: '/' :: (userinfoText other ++ rest))

/-- Two texts of URLs that differ only in user info and in the values of the query. -/
structure DifferInSecrets (first second : List Char) : Prop where
  main : SameButUserinfo (mainPart first) (mainPart second)
  query : Option.Rel (fun one other => writtenKeys one = writtenKeys other) (queryPart first)
    (queryPart second)
  fragment : (GoStrings.cut '#' first).2 = (GoStrings.cut '#' second).2

/-- Two URLs have user info or not, and the same keys in well-formed settings; without such a
setting the queries are the same. -/
structure SameShown (first second : URL) : Prop where
  user : first.user.isSome = second.user.isSome
  keys : ∀ key, HasKey key first.rawQuery ↔ HasKey key second.rawQuery
  unkeyed : (∀ key, ¬ HasKey key first.rawQuery) → first.rawQuery = second.rawQuery

section Parts

variable {parseHost : List Char → Option (List Char)} {raw : List Char} {url : URL}

/-- A query as `Parse` keeps it. -/
def markedQuery : Option (List Char) → List Char × Bool
  | none => ([], false)
  | some [] => ([], true)
  | some query => (query, false)

/-- A text without a question mark is cut in front of its query. -/
theorem cutQuery_marked {before : List Char} (noQuery : '?' ∉ before)
    (query : Option (List Char)) :
    cutQuery (before ++ (query.map ('?' :: ·)).getD []) = (before, markedQuery query) := by
  rw [cutQuery]
  cases query with
  | none =>
      rw [Option.map_none, Option.getD_none, List.append_nil, GoStrings.cut_of_not_mem noQuery]
      rfl
  | some query =>
      rw [Option.map_some, Option.getD_some, GoStrings.cut_append noQuery]
      cases query <;> rfl

/-- What stands before the fragment is parsed as the part before the query and the query. -/
theorem exists_parseMain_of_before {before : List Char}
    (parsed : parseWithoutFragment parseHost before = some url) :
    ∃ main, parseMain parseHost (GoStrings.cut '?' before).1
        (markedQuery (GoStrings.cut '?' before).2) = some main ∧
      redactedMain url = redactedMain main ∧ url.user = main.user ∧
      (url.rawQuery, url.forceQuery) = markedQuery (GoStrings.cut '?' before).2 := by
  rw [parseWithoutFragment] at parsed
  split at parsed
  · cases parsed
  split at parsed
  · rename_i star
    subst star
    cases parsed
    exact ⟨pathURL [] none [] false ([], false) ([0x2a], ['*']), rfl, rfl, rfl, rfl⟩
  obtain ⟨⟨scheme, rest⟩, found, hierarchy⟩ := Option.bind_eq_some_iff.mp parsed
  -- What follows the scheme is cut where the whole text is.
  obtain ⟨rest', isMain, isRest⟩ : ∃ rest', getScheme (GoStrings.cut '?' before).1 =
      some (scheme, rest') ∧ cutQuery rest = (rest', markedQuery (GoStrings.cut '?' before).2) := by
    cases isCut : GoStrings.cut '?' before with
    | mk main query =>
        cases query with
        | none =>
            obtain ⟨noQuery, rfl⟩ := GoStrings.eq_of_cut_none isCut
            have absent := not_mem_rest_of_getScheme noQuery found
            have marked := cutQuery_marked absent none
            rw [Option.map_none, Option.getD_none, List.append_nil] at marked
            exact ⟨rest, found, marked⟩
        | some query =>
            obtain ⟨noQuery, rfl⟩ := GoStrings.eq_of_cut isCut
            rw [getScheme_append] at found
            obtain ⟨⟨scheme, rest'⟩, isMain, isResult⟩ := Option.map_eq_some_iff.mp found
            obtain ⟨rfl, rfl⟩ := Prod.mk.inj isResult
            have absent := not_mem_rest_of_getScheme noQuery isMain
            exact ⟨rest', isMain, cutQuery_marked absent (some query)⟩
  dsimp only at hierarchy
  rw [isRest] at hierarchy
  have reads : parseMain parseHost (GoStrings.cut '?' before).1
      (markedQuery (GoStrings.cut '?' before).2) = some url := by
    rw [parseMain, isMain]
    exact hierarchy
  obtain ⟨query, force⟩ := query_of_parseMain reads
  exact ⟨url, reads, rfl, rfl, by rw [query, force]⟩

/-- Main part and query of a text that was read. -/
theorem exists_parseMain (parsed : parseURL parseHost raw = some url) :
    ∃ main, parseMain parseHost (mainPart raw) (markedQuery (queryPart raw)) = some main ∧
      redactedMain url = redactedMain main ∧ url.user = main.user ∧
      (url.rawQuery, url.forceQuery) = markedQuery (queryPart raw) := by
  rw [mainPart, queryPart]
  rw [parseURL] at parsed
  split at parsed
  · rename_i isCut
    rw [isCut]
    exact exists_parseMain_of_before parsed
  · rename_i isCut
    rw [isCut]
    exact exists_parseMain_of_before parsed
  · rename_i isCut
    obtain ⟨whole, isWhole, parsed⟩ := Option.bind_eq_some_iff.mp parsed
    obtain ⟨⟨fragment, rawFragment⟩, -, isResult⟩ := Option.bind_eq_some_iff.mp parsed
    obtain rfl := Option.some_inj.mp isResult
    rw [isCut, redactedMain_withFragment]
    exact exists_parseMain_of_before isWhole

/-- A fragment as it is printed. -/
def shownFragment (fragment : Option (List Char)) : List Char :=
  ((fragment.bind (setEscaped .fragment)).map fun part =>
    if part.1 ≠ [] then '#' :: escaped .fragment part.1 part.2 else []).getD []

/-- The fragment is shown as it is given. -/
theorem fragmentText_of_parseURL (parsed : parseURL parseHost raw = some url) :
    url.fragmentText = shownFragment (GoStrings.cut '#' raw).2 := by
  rw [parseURL] at parsed
  split at parsed
  · rename_i isCut
    rw [isCut, URL.fragmentText, (fragment_of_parseWithoutFragment parsed).1]
    rfl
  · rename_i isCut
    rw [isCut, URL.fragmentText, (fragment_of_parseWithoutFragment parsed).1]
    rfl
  · rename_i isCut
    obtain ⟨whole, -, parsed⟩ := Option.bind_eq_some_iff.mp parsed
    obtain ⟨part, isPart, isResult⟩ := Option.bind_eq_some_iff.mp parsed
    obtain rfl := Option.some_inj.mp isResult
    rw [isCut, shownFragment, Option.bind_some, isPart]
    rfl

end Parts

section Main

variable {parseHost : List Char → Option (List Char)} {scheme rest : List Char}
  {query : List Char × Bool} {url : URL}

/-- The path behind an authority is empty or starts with a slash. -/
theorem rooted_of_setEscaped {path : List UInt8 × List Char} (text : List Char)
    (set : setEscaped .path (text.dropWhile (· ≠ '/')) = some path) {back : URL}
    (isPath : back.path = path.1) (isRaw : back.rawPath = path.2) :
    back.escapedPath = [] ∨ back.escapedPath.head? = some '/' := by
  rcases rooted_dropWhile text with behind | slash
  · rw [behind] at set
    have noPath : [] = path.1 := congrArg Prod.fst (Option.some_inj.mp set)
    exact .inl (escapedPath_eq_nil_iff.mpr (isPath.trans noPath.symm))
  · exact .inr (head_escapedPath set isPath isRaw slash)

/-- The host is what stands behind the user. -/
theorem host_of_parseAuthority {info : Option (List Char)} {hostText host : List Char}
    {user : Option (List UInt8 × Option (List UInt8))} (noUser : '@' ∉ hostText)
    (parsed : parseAuthority parseHost (userinfoText info ++ hostText) = some (user, host)) :
    parseHost hostText = some host ∧ user.isSome = info.isSome := by
  cases info with
  | none =>
      rw [userinfoText, List.nil_append, parseAuthority, GoStrings.cutLast_of_not_mem noUser]
        at parsed
      obtain ⟨host, isHost, isResult⟩ := Option.map_eq_some_iff.mp parsed
      obtain ⟨rfl, rfl⟩ := Prod.mk.inj isResult
      exact ⟨isHost, rfl⟩
  | some userinfo =>
      rw [userinfoText, List.append_assoc, List.singleton_append, parseAuthority,
        GoStrings.cutLast_append noUser] at parsed
      obtain ⟨host, isHost, parsed⟩ := Option.bind_eq_some_iff.mp parsed
      obtain ⟨info, -, isResult⟩ := Option.bind_eq_some_iff.mp parsed
      obtain ⟨rfl, rfl⟩ := Prod.mk.inj (Option.some_inj.mp isResult)
      exact ⟨isHost, rfl⟩

/-- What is read behind two slashes: an authority, or without a scheme and with a third slash
a path. -/
theorem parseMain_userinfo {info : Option (List Char)} (isName : IsSchemeName scheme)
    (isInfo : '/' ∉ userinfoText info) (isHost : '@' ∉ rest.takeWhile (· ≠ '/'))
    (parsed : parseMain parseHost (schemeText scheme ++ '/' :: '/' :: (userinfoText info ++ rest))
      query = some url) :
    (∃ user host path, parseHost (rest.takeWhile (· ≠ '/')) = some host ∧
      setEscaped .path (rest.dropWhile (· ≠ '/')) = some path ∧ user.isSome = info.isSome ∧
      url = pathURL (scheme.map Char.toLower) user host false query path) ∨
    (scheme = [] ∧ info = none ∧ rest.head? = some '/' ∧
      ∃ path, setEscaped .path ('/' :: '/' :: rest) = some path ∧
        url = pathURL [] none [] false query path) := by
  by_cases reads : scheme ≠ [] ∨ (userinfoText info ++ rest).head? ≠ some '/'
  · have plain : ∀ c ∈ userinfoText info, decide (c ≠ '/') = true :=
      fun c member => decide_eq_true fun same => isInfo (same ▸ member)
    rw [parseMain_authority isName reads, List.takeWhile_append_of_pos plain,
      List.dropWhile_append_of_pos plain] at parsed
    obtain ⟨⟨user, host⟩, isAuthority, parsed⟩ := Option.bind_eq_some_iff.mp parsed
    obtain ⟨path, set, rfl⟩ := Option.map_eq_some_iff.mp parsed
    obtain ⟨isHost, isSome⟩ := host_of_parseAuthority isHost isAuthority
    exact .inl ⟨user, host, path, isHost, set, isSome, rfl⟩
  · rw [not_or, not_not, not_not] at reads
    obtain ⟨rfl, slash⟩ := reads
    obtain rfl : info = none := by
      cases info with
      | none => rfl
      | some userinfo =>
          cases userinfo with
          | nil => cases slash
          | cons c more =>
              have same : c = '/' := Option.some_inj.mp slash
              exact absurd (same ▸ List.mem_cons_self) isInfo
    rw [userinfoText, List.nil_append] at slash parsed
    have noColon : ':' ∉ (GoStrings.cut '/' ('/' :: '/' :: rest)).1 := noColon_of_slashes rest
    rw [schemeText, if_neg (by simp), List.nil_append, parseMain, getScheme_of_noColon noColon,
      Option.bind_some, parseHierarchy, if_neg (by simp)] at parsed
    dsimp only at parsed
    rw [if_neg (by simp [slash])] at parsed
    obtain ⟨path, set, rfl⟩ := Option.map_eq_some_iff.mp parsed
    exact .inr ⟨rfl, rfl, slash, path, set, rfl⟩

/-- An absolute path is shown with a slash. -/
theorem slash_mem_shownPath (slash : url.escapedPath.head? = some '/') :
    '/' ∈ shownPath url := by
  obtain ⟨more, slashes⟩ := List.head?_eq_some_iff.mp slash
  rw [shownPath]
  split
  · simp
  · rw [slashes]
    exact List.mem_cons_self

/-- What is read behind two slashes is printed with a slash, or as a scheme. -/
theorem mem_redactedMain_of_userinfo {info : Option (List Char)} (isName : IsSchemeName scheme)
    (isInfo : '/' ∉ userinfoText info) (isHost : '@' ∉ rest.takeWhile (· ≠ '/'))
    (parsed : parseMain parseHost (schemeText scheme ++ '/' :: '/' :: (userinfoText info ++ rest))
      query = some url) :
    '/' ∈ redactedMain url ∨ ':' ∈ redactedMain url ∨ redactedMain url = [] := by
  rcases parseMain_userinfo isName isInfo isHost parsed with
    ⟨user, host, path, -, set, -, rfl⟩ | ⟨rfl, rfl, slash, path, set, rfl⟩
  · have rooted : ∀ back : URL, back.path = path.1 → back.rawPath = path.2 →
        back.escapedPath = [] ∨ back.escapedPath.head? = some '/' :=
      fun _ => rooted_of_setEscaped rest set
    by_cases has : HasAuthority (pathURL (scheme.map Char.toLower) user host false query path)
    · rw [redactedMain_authority rfl has (rooted _ rfl rfl)]
      simp
    · rcases rooted (pathURL (scheme.map Char.toLower) user host false query path) rfl rfl with
        noPath | slash
      · rw [redactedMain_of_noPath has noPath, schemeText]
        split
        · simp
        · exact .inr (.inr rfl)
      · rw [redactedMain_path rfl has]
        exact .inl (List.mem_append_right _ (slash_mem_shownPath slash))
  · have lacks : ¬ HasAuthority (pathURL [] none [] false query path) := by
      simp [HasAuthority, pathURL]
    rw [redactedMain_path rfl lacks]
    refine .inl (List.mem_append_right _ (slash_mem_shownPath ?_))
    exact head_escapedPath set rfl rfl rfl

/-- The query changes nothing before it. -/
theorem redactedMain_withQuery (url : URL) (query : List Char × Bool) :
    redactedMain { url with rawQuery := query.1, forceQuery := query.2 } = redactedMain url := by
  rw [redactedMain, redactedMain, withoutUser_eq, withoutUser_eq]
  rfl

/-- The query plays no part in what is shown before it. -/
theorem redactedMain_of_same {main : List Char} {first second : List Char × Bool} {one other : URL}
    (isOne : parseMain parseHost main first = some one)
    (isOther : parseMain parseHost main second = some other) :
    redactedMain one = redactedMain other ∧ one.user = other.user := by
  obtain ⟨parts, isParts, isOne⟩ := Option.bind_eq_some_iff.mp isOne
  obtain ⟨parts', isParts', isOther⟩ := Option.bind_eq_some_iff.mp isOther
  cases isParts.symm.trans isParts'
  rw [parseHierarchy_query] at isOne isOther
  obtain ⟨base, isBase, rfl⟩ := Option.map_eq_some_iff.mp isOne
  obtain ⟨base', isBase', rfl⟩ := Option.map_eq_some_iff.mp isOther
  cases isBase.symm.trans isBase'
  rw [redactedMain_withQuery, redactedMain_withQuery]
  exact ⟨rfl, rfl⟩

/-- Redacted user info is seen. -/
theorem length_redactedMain_lt (scheme host : List Char) {path : List UInt8 × List Char}
    (rooted : ∀ back : URL, back.path = path.1 → back.rawPath = path.2 →
      back.escapedPath = [] ∨ back.escapedPath.head? = some '/')
    (info : List UInt8 × Option (List UInt8)) (first second : List Char × Bool) :
    (redactedMain (pathURL scheme none host false first path)).length <
      (redactedMain (pathURL scheme (some info) host false second path)).length := by
  have samePath : (pathURL scheme (some info) host false second path).escapedPath =
      (pathURL scheme none host false first path).escapedPath := rfl
  have given : HasAuthority (pathURL scheme (some info) host false second path) :=
    .inl (by simp [pathURL])
  rw [redactedMain_authority rfl given (rooted _ rfl rfl), samePath]
  by_cases has : HasAuthority (pathURL scheme none host false first path)
  · rw [redactedMain_authority rfl has (rooted _ rfl rfl)]
    simp only [shownAuthority, pathURL, Option.isSome_some, Option.isSome_none, if_true,
      List.length_append, List.length_cons]
    simp
  · rw [redactedMain_path rfl has, shownPath]
    split
    · simp [shownAuthority, pathURL]
      omega
    · simp [shownAuthority, pathURL]
      omega

/-- Two URLs with one path are shown alike exactly if both have a user or none. -/
theorem redactedMain_pathURL_iff {host : List Char} {path : List UInt8 × List Char}
    (rooted : ∀ back : URL, back.path = path.1 → back.rawPath = path.2 →
      back.escapedPath = [] ∨ back.escapedPath.head? = some '/')
    (one other : Option (List UInt8 × Option (List UInt8))) (first second : List Char × Bool) :
    redactedMain (pathURL scheme one host false first path) =
        redactedMain (pathURL scheme other host false second path) ↔
      one.isSome = other.isSome := by
  cases one with
  | none =>
      cases other with
      | none => exact iff_of_true rfl rfl
      | some info =>
          refine iff_of_false (fun same => ?_) (by simp)
          have shorter := length_redactedMain_lt scheme host rooted info first second
          rw [same] at shorter
          exact Nat.lt_irrefl _ shorter
  | some info =>
      cases other with
      | none =>
          refine iff_of_false (fun same => ?_) (by simp)
          have shorter := length_redactedMain_lt scheme host rooted info second first
          rw [same] at shorter
          exact Nat.lt_irrefl _ shorter
      | some info => exact iff_of_true rfl rfl

/-- A path with three slashes at its start is no redacted user info. -/
theorem redactedMain_ne_of_slashes {rest host : List Char} {path path' : List UInt8 × List Char}
    (slash : rest.head? = some '/') (set : setEscaped .path ('/' :: '/' :: rest) = some path)
    (rooted : ∀ back : URL, back.path = path'.1 → back.rawPath = path'.2 →
      back.escapedPath = [] ∨ back.escapedPath.head? = some '/')
    (info : List UInt8 × Option (List UInt8)) (first second : List Char × Bool) :
    redactedMain (pathURL [] (some info) host false first path') ≠
      redactedMain (pathURL [] none [] false second path) := by
  have given : HasAuthority (pathURL [] (some info) host false first path') :=
    .inl (by simp [pathURL])
  have lacks : ¬ HasAuthority (pathURL [] none [] false second path) := by
    simp [HasAuthority, pathURL]
  obtain ⟨more, rfl⟩ := List.head?_eq_some_iff.mp slash
  obtain ⟨behind, slashes⟩ : ∃ behind, (pathURL [] none [] false second path).escapedPath =
      '/' :: '/' :: '/' :: behind := by
    have printed : ∀ back : URL, back.path = path.1 → back.rawPath = path.2 →
        unescapeBytes (utf8 ('/' :: '/' :: '/' :: more)) = some back.path ∧ back.escapedPath =
          if validEncoded .path ('/' :: '/' :: '/' :: more) then '/' :: '/' :: '/' :: more
          else escape .path back.path := by
      intro back isPath isRaw
      refine escapedPath_of_setEscaped ?_ rfl
      rw [isPath, isRaw]
      exact set
    obtain ⟨decodes, isPath⟩ := printed (pathURL [] none [] false second path) rfl rfl
    rw [isPath]
    split
    · exact ⟨more, rfl⟩
    · have cut : utf8 ('/' :: '/' :: '/' :: more) = 0x2f :: 0x2f :: 0x2f :: utf8 more := rfl
      rw [cut, unescapeBytes_plain (by decide), unescapeBytes_plain (by decide),
        unescapeBytes_plain (by decide)] at decodes
      obtain ⟨_, third, isBytes⟩ := Option.map_eq_some_iff.mp decodes
      obtain ⟨_, second, isThird⟩ := Option.map_eq_some_iff.mp third
      obtain ⟨bytes, -, isSecond⟩ := Option.map_eq_some_iff.mp second
      rw [← isBytes, ← isThird, ← isSecond]
      exact ⟨_, rfl⟩
  obtain ⟨user, isUser⟩ : ∃ user, redactedUser = '%' :: user := ⟨_, rfl⟩
  rw [redactedMain_authority rfl given (rooted _ rfl rfl), redactedMain_path rfl lacks,
    shownPath_of_noColon, slashes, shownAuthority, isUser]
  · simp [pathURL, schemeText]
  · intro _
    rw [slashes]
    exact noColon_of_slashes _

/-- Of two texts that are the same but for user info, redaction shows who has one. -/
theorem redactedMain_eq_iff {first second : List Char} {one other : List Char × Bool}
    {firstURL secondURL : URL} (same : SameButUserinfo first second)
    (isFirst : parseMain parseHost first one = some firstURL)
    (isSecond : parseMain parseHost second other = some secondURL) :
    redactedMain firstURL = redactedMain secondURL ↔
      firstURL.user.isSome = secondURL.user.isSome := by
  cases same with
  | same =>
      obtain ⟨main, user⟩ := redactedMain_of_same isFirst isSecond
      exact iff_of_true main (by rw [user])
  | @userinfo scheme rest oneInfo otherInfo isName isOne isOther isHost =>
      by_cases equal : oneInfo = otherInfo
      · subst equal
        obtain ⟨main, user⟩ := redactedMain_of_same isFirst isSecond
        exact iff_of_true main (by rw [user])
      rcases parseMain_userinfo isName isOne isHost isFirst with
        ⟨user, host, path, parsesHost, set, isSome, rfl⟩ | ⟨rfl, rfl, slash, path, set, rfl⟩
      · rcases parseMain_userinfo isName isOther isHost isSecond with
          ⟨user', host', path', parsesHost', set', isSome', rfl⟩ | ⟨rfl, rfl, slash, path', set', rfl⟩
        · cases parsesHost.symm.trans parsesHost'
          cases set.symm.trans set'
          exact redactedMain_pathURL_iff (fun _ => rooted_of_setEscaped rest set) user user' one other
        · obtain ⟨info, isInfo⟩ := Option.ne_none_iff_exists'.mp equal
          rw [isInfo] at isSome
          obtain ⟨info, rfl⟩ := Option.isSome_iff_exists.mp isSome
          refine iff_of_false ?_ (by simp [pathURL])
          exact redactedMain_ne_of_slashes slash set' (fun _ => rooted_of_setEscaped rest set) info
            one other
      · rcases parseMain_userinfo isName isOther isHost isSecond with
          ⟨user', host', path', parsesHost', set', isSome', rfl⟩ | ⟨-, rfl, -⟩
        · obtain ⟨info, isInfo⟩ := Option.ne_none_iff_exists'.mp (Ne.symm equal)
          rw [isInfo] at isSome'
          obtain ⟨info, rfl⟩ := Option.isSome_iff_exists.mp isSome'
          refine iff_of_false (fun main => ?_) (by simp [pathURL])
          exact redactedMain_ne_of_slashes slash set (fun _ => rooted_of_setEscaped rest set') info
            other one main.symm
        · exact absurd rfl equal

end Main

section Hidden

variable {parseHost : List Char → Option (List Char)} {first second : List Char}
  {firstURL secondURL : URL}

/-- Differing in the user goes both ways. -/
theorem SameButUserinfo.symm (same : SameButUserinfo first second) :
    SameButUserinfo second first := by
  cases same with
  | same => exact .same first
  | userinfo isName isOne isOther isHost => exact .userinfo isName isOther isOne isHost

/-- Differing in secrets goes both ways. -/
theorem DifferInSecrets.symm (differ : DifferInSecrets first second) :
    DifferInSecrets second first := by
  refine ⟨differ.main.symm, ?_, differ.fragment.symm⟩
  have query := differ.query
  revert query
  cases queryPart first <;> cases queryPart second <;> intro query <;> cases query
  · exact .none
  · rename_i same
    exact .some same.symm

/-- A query is shown as a query. -/
theorem queryText_marked {query : List Char} {force : Bool} {given : Option (List Char)}
    (isQuery : (query, force) = markedQuery given) :
    queryText (shownQuery query, force) = (given.map fun query => '?' :: shownQuery query).getD [] ∧
      query = given.getD [] := by
  cases given with
  | none =>
      obtain ⟨rfl, rfl⟩ := Prod.mk.inj isQuery
      exact ⟨rfl, rfl⟩
  | some text =>
      cases text with
      | nil =>
          obtain ⟨rfl, rfl⟩ := Prod.mk.inj isQuery
          exact ⟨rfl, rfl⟩
      | cons c more =>
          obtain ⟨rfl, rfl⟩ := Prod.mk.inj isQuery
          have shown : shownQuery (c :: more) ≠ [] := by
            intro empty
            have keys := queryKeys_shownQuery (c :: more)
            rw [empty] at keys
            have unkeyed : queryKeys [] = [] := rfl
            rw [shownQuery, ← keys, if_pos unkeyed] at empty
            cases empty
          exact ⟨if_pos (.inr shown), rfl⟩

/-- Main part and query are seen in the text. -/
theorem append_queryText_inj {main other : List Char} {query query' : List Char × Bool}
    (noQuery : '?' ∉ main) (noQuery' : '?' ∉ other)
    (same : main ++ queryText query = other ++ queryText query') :
    main = other ∧ queryText query = queryText query' := by
  have cut {text : List Char} (absent : '?' ∉ text) (query : List Char × Bool) :
      (GoStrings.cut '?' (text ++ queryText query)).1 = text := by
    rcases queryText_head query with none_ | ⟨tail, isTail⟩
    · rw [none_, List.append_nil, GoStrings.cut_of_not_mem absent]
    · rw [isTail, GoStrings.cut_append absent]
  have main := cut noQuery query
  rw [same, cut noQuery'] at main
  subst main
  exact ⟨rfl, List.append_cancel_left same⟩

/-- Two URLs that differ in secrets are shown alike exactly if what is shown of them is the same. -/
theorem redactedText_eq_iff (hosts : HostSyntax parseHost) (differ : DifferInSecrets first second)
    (isFirst : parseURL parseHost first = some firstURL)
    (isSecond : parseURL parseHost second = some secondURL) :
    redactedText firstURL = redactedText secondURL ↔ SameShown firstURL secondURL := by
  obtain ⟨one, isOne, oneMain, oneUser, oneQuery⟩ := exists_parseMain isFirst
  obtain ⟨other, isOther, otherMain, otherUser, otherQuery⟩ := exists_parseMain isSecond
  have shown := redactedMain_eq_iff differ.main isOne isOther
  rw [← oneMain, ← otherMain, ← oneUser, ← otherUser] at shown
  have noQuery {raw : List Char} {url : URL} (parsed : parseURL parseHost raw = some url) :
      '?' ∉ redactedMain url :=
    not_mem_of_plain (plain_redactedMain (parsedURL_of_parseURL hosts parsed)) (by decide)
  have fragments : firstURL.fragmentText = secondURL.fragmentText := by
    rw [fragmentText_of_parseURL isFirst, fragmentText_of_parseURL isSecond, differ.fragment]
  have queries : queryText (shownQuery firstURL.rawQuery, firstURL.forceQuery) =
      queryText (shownQuery secondURL.rawQuery, secondURL.forceQuery) ↔
        shownQuery firstURL.rawQuery = shownQuery secondURL.rawQuery := by
    obtain ⟨oneText, isOneQuery⟩ := queryText_marked oneQuery
    obtain ⟨otherText, isOtherQuery⟩ := queryText_marked otherQuery
    rw [oneText, otherText, isOneQuery, isOtherQuery]
    have present := differ.query
    revert present
    cases queryPart first <;> cases queryPart second <;> intro present <;> cases present
    · exact iff_of_true rfl rfl
    · exact List.cons_inj_right _
  rw [redactedText, redactedText, fragments, List.append_left_inj]
  constructor
  · intro same
    obtain ⟨main, query⟩ := append_queryText_inj (noQuery isFirst) (noQuery isSecond) same
    obtain ⟨keys, unkeyed⟩ := shownQuery_eq_iff.mp (queries.mp query)
    exact ⟨shown.mp main, keys, unkeyed⟩
  · rintro ⟨user, keys, unkeyed⟩
    rw [shown.mpr user, queries.mpr (shownQuery_eq_iff.mpr ⟨keys, unkeyed⟩)]

/-- The answer to a text that is no URL is given to no other text that differs from it only in
secrets. -/
theorem redactedText_ne_redacted (differ : DifferInSecrets first second) (isFirst : parseURL parseHost first = none)
    (isSecond : parseURL parseHost second = some secondURL) :
    redactedText secondURL ≠ redacted.toList := by
  intro text
  obtain ⟨other, isOther, otherMain, -, otherQuery⟩ := exists_parseMain isSecond
  obtain ⟨query, -⟩ := queryText_marked otherQuery
  -- Neither query nor fragment is in the text, so that it is all path.
  have absent (c : Char) (unseen : c ∉ redacted.toList) : c ∉ redactedText secondURL := by
    rw [text]
    exact unseen
  have noQuery : queryPart second = none := by
    cases isQuery : queryPart second with
    | none => rfl
    | some given =>
        rw [isQuery] at query
        refine absurd ?_ (absent '?' (by decide))
        rw [redactedText, query]
        simp
  have noQuery' : queryPart first = none := by
    have present := differ.query
    rw [noQuery] at present
    revert present
    cases queryPart first <;> intro present <;> cases present
    rfl
  have noFragment : secondURL.fragmentText = [] := by
    by_contra given
    refine absurd ?_ (absent '#' (by decide))
    have marked : secondURL.fragmentText.head? = some '#' := by
      rw [URL.fragmentText] at given ⊢
      split
      · rfl
      · rename_i unmarked
        exact absurd (if_neg unmarked) given
    obtain ⟨more, isFragment⟩ := List.head?_eq_some_iff.mp marked
    rw [redactedText, isFragment]
    exact List.mem_append_right _ List.mem_cons_self
  have isMain : redactedMain secondURL = redacted.toList := by
    rw [redactedText, query, noQuery, noFragment] at text
    simpa using text
  have mains := differ.main
  generalize isOneMain : mainPart first = oneMain at mains
  generalize isOtherMain : mainPart second = otherMain' at mains isOther
  cases mains with
  | same =>
      have cut : GoStrings.cut '#' first = GoStrings.cut '#' second := by
        have one := GoStrings.eq_of_cut_none (Prod.ext isOneMain noQuery')
        have other := GoStrings.eq_of_cut_none (Prod.ext isOtherMain noQuery)
        exact Prod.ext (one.2.symm.trans other.2) differ.fragment
      rw [parseURL, cut, ← parseURL, isSecond] at isFirst
      cases isFirst
  | userinfo isName isOne isOtherInfo isHost =>
      have shown := mem_redactedMain_of_userinfo isName isOtherInfo isHost isOther
      rw [← otherMain, isMain] at shown
      exact absurd shown (by decide)

/-- Two texts that differ only in secrets look the same, exactly if both are no URLs, or both
are URLs that show the same. -/
theorem redactURL_eq_iff_sameShown (hosts : HostSyntax parseHost) {first second : String}
    (differ : DifferInSecrets first.toList second.toList) :
    redactURL parseHost first = redactURL parseHost second ↔
      Option.Rel SameShown (parseURL parseHost first.toList)
        (parseURL parseHost second.toList) := by
  cases isFirst : parseURL parseHost first.toList with
  | none =>
      cases isSecond : parseURL parseHost second.toList with
      | none =>
          rw [redactURL, redactURL, isFirst, isSecond]
          exact iff_of_true rfl .none
      | some url =>
          refine iff_of_false (fun same => ?_) fun shown => by cases shown
          rw [redactURL_eq isSecond, redactURL, isFirst] at same
          refine redactedText_ne_redacted differ isFirst isSecond ?_
          rw [← String.toList_ofList (l := redactedText url), ← same]
  | some url =>
      cases isSecond : parseURL parseHost second.toList with
      | none =>
          refine iff_of_false (fun same => ?_) fun shown => by cases shown
          rw [redactURL_eq isFirst, redactURL, isSecond] at same
          refine redactedText_ne_redacted differ.symm isSecond isFirst ?_
          rw [← String.toList_ofList (l := redactedText url), same]
      | some url' =>
          rw [redactURL_eq isFirst, redactURL_eq isSecond, String.ofList_inj,
            redactedText_eq_iff hosts differ isFirst isSecond]
          constructor
          · exact Option.Rel.some
          · rintro ⟨shown⟩
            exact shown

/-- Of two texts that differ only in secrets, redaction hides the secrets and is stable, exactly
if the secrets are not shown by the keys and the redacted URL is read back. -/
theorem redactURL_hides_iff (hosts : HostSyntax parseHost) {first second : String}
    (differ : DifferInSecrets first.toList second.toList) :
    (redactURL parseHost first = redactURL parseHost second ∧
        redactURL parseHost (redactURL parseHost first) = redactURL parseHost first) ↔
      Option.Rel SameShown (parseURL parseHost first.toList)
          (parseURL parseHost second.toList) ∧
        ∀ url, parseURL parseHost first.toList = some url → ReadsBack parseHost url := by
  rw [redactURL_eq_iff_sameShown hosts differ]
  refine and_congr_right fun _ => ?_
  cases isFirst : parseURL parseHost first.toList with
  | none =>
      refine iff_of_true ?_ fun _ isSome => by cases isSome
      obtain ⟨url, parses, text⟩ := parseURL_redacted parseHost
      have isFirst : redactURL parseHost first = redacted := by
        rw [redactURL, isFirst]
      rw [isFirst, redactURL_eq parses, text, String.ofList_toList]
  | some url =>
      rw [redactURL_redactURL_iff hosts isFirst]
      constructor
      · rintro back _ ⟨rfl⟩
        exact back
      · intro back
        exact back url rfl

/-- Hosts of unreserved characters are printed as they are. -/
def unreservedHost (text : List Char) : Option (List Char) :=
  if text.all isUnreserved then some text else none

/-- Unreserved characters are a syntax of hosts. -/
theorem unreservedHost_syntax : HostSyntax unreservedHost where
  empty := rfl
  nonempty := by
    intro text parsed
    rw [unreservedHost] at parsed
    split at parsed
    · exact Option.some_inj.mp parsed
    · cases parsed
  plain := by
    intro text host parsed
    rw [unreservedHost] at parsed
    split at parsed
    · rename_i unreserved
      obtain rfl := Option.some_inj.mp parsed
      rw [List.all_eq_true] at unreserved ⊢
      intro c member
      have all : ∀ n < 128, isUnreserved (Char.ofNat n) = true →
          (isPlain (Char.ofNat n) && Char.ofNat n ≠ '/' && Char.ofNat n ≠ '@') = true := by
        decide +kernel
      have here := all c.toNat (lt_of_isUnreserved (unreserved c member))
      rw [Char.ofNat_toNat] at here
      exact here (unreserved c member)
    · cases parsed

/-- Other credentials and other values of the same keys. -/
theorem redactURL_hides_token :
    let first := "https://user:pw@api.example.com/v1/items?token=abc&page=2"
    let second := "https://root@api.example.com/v1/items?token=&page"
    redactURL unreservedHost first = redactURL unreservedHost second ∧
      redactURL unreservedHost (redactURL unreservedHost first) =
        redactURL unreservedHost first := by
  intro first second
  have isFirst : parseURL unreservedHost first.toList =
      some ⟨"https".toList, [], some (utf8 "user".toList, some (utf8 "pw".toList)),
        "api.example.com".toList, utf8 "/v1/items".toList, [], false, false,
        "token=abc&page=2".toList, [], []⟩ := by decide +kernel
  have isSecond : parseURL unreservedHost second.toList =
      some ⟨"https".toList, [], some (utf8 "root".toList, none),
        "api.example.com".toList, utf8 "/v1/items".toList, [], false, false,
        "token=&page".toList, [], []⟩ := by decide +kernel
  have differ : DifferInSecrets first.toList second.toList := by
    have main : SameButUserinfo
        (schemeText ['h', 't', 't', 'p', 's'] ++
          '/' :: '/' :: (userinfoText (some "user:pw".toList) ++ "api.example.com/v1/items".toList))
        (schemeText ['h', 't', 't', 'p', 's'] ++
          '/' :: '/' :: (userinfoText (some "root".toList) ++ "api.example.com/v1/items".toList)) :=
      .userinfo ⟨rfl, fun _ _ same => by cases same; rfl⟩ (by decide) (by decide) (by decide)
    have firstQuery : queryPart first.toList = some "token=abc&page=2".toList := by decide +kernel
    have secondQuery : queryPart second.toList = some "token=&page".toList := by decide +kernel
    have firstMain : mainPart first.toList = schemeText ['h', 't', 't', 'p', 's'] ++
        '/' :: '/' :: (userinfoText (some "user:pw".toList) ++ "api.example.com/v1/items".toList) := by
      decide +kernel
    have secondMain : mainPart second.toList = schemeText ['h', 't', 't', 'p', 's'] ++
        '/' :: '/' :: (userinfoText (some "root".toList) ++ "api.example.com/v1/items".toList) := by
      decide +kernel
    refine ⟨?_, ?_, by decide +kernel⟩
    · rw [firstMain, secondMain]
      exact main
    · rw [firstQuery, secondQuery]
      exact .some (by decide +kernel)
  refine (redactURL_hides_iff unreservedHost_syntax differ).mpr ⟨?_, ?_⟩
  · rw [isFirst, isSecond]
    have keys : queryKeys "token=abc&page=2".toList = queryKeys "token=&page".toList := by
      decide +kernel
    refine .some ⟨rfl, queryKeys_eq_iff.mp keys, fun unkeyed => ?_⟩
    exact absurd (queryKeys_eq_nil_iff.mpr unkeyed) (by decide +kernel)
  · intro url isURL
    obtain rfl := Option.some_inj.mp (isFirst.symm.trans isURL)
    exact ⟨by decide +kernel, fun _ _ lacks => absurd (.inl rfl) lacks⟩

/-- A setting with a semicolon is no setting, and its query is shown as it is. -/
theorem redactURL_shows_token :
    let first := "https://api.example.com/v1/items?token=abc;1"
    let second := "https://api.example.com/v1/items?token=xyz;1"
    DifferInSecrets first.toList second.toList ∧
      redactURL unreservedHost first ≠ redactURL unreservedHost second := by
  intro first second
  have same : mainPart first.toList = mainPart second.toList := by decide +kernel
  have firstQuery : queryPart first.toList = some "token=abc;1".toList := by decide +kernel
  have secondQuery : queryPart second.toList = some "token=xyz;1".toList := by decide +kernel
  refine ⟨⟨?_, ?_, by decide +kernel⟩, by decide +kernel⟩
  · rw [same]
    exact .same _
  · rw [firstQuery, secondQuery]
    exact .some (by decide +kernel)

end Hidden

end Restitch.Reqlog
