import Mathlib.Data.List.Sort
import Restitch.Http.Url
import Restitch.Std.GoStrings

/-!
# Parsing URLs (`net/url`)

`url.Parse`, `URL.String` and `ParseQuery`. Escaped parts are kept as the bytes they stand
for, together with the text they were given in where that is not the usual one. The syntax
of hosts is a parameter.
-/

namespace Restitch.Http

open Restitch.Std

/-- The parts of a URL that have escape rules of their own. -/
inductive Encoding where
  | path
  | userPassword
  | host
  | queryComponent
  | fragment
deriving DecidableEq

/-- The characters that `shouldEscape` leaves alone. -/
def Encoding.keeps (mode : Encoding) (c : Char) : Bool :=
  isUnreserved c ||
    match mode with
    | .path => c ∈ ['$', '&', '+', ',', '/', ':', ';', '=', '@']
    | .userPassword => c ∈ ['$', '&', '+', ',', ';', '=']
    | .host => c ∈ ['!', '$', '&', '\'', '(', ')', '*', '+', ',', ';', '=', ':', '[', ']', '<',
        '>', '"']
    | .queryComponent => false
    | .fragment => c ∈ ['$', '&', '+', ',', '/', ':', ';', '=', '?', '@', '!', '(', ')', '*']

/-- `escape`, other than for a query. -/
def escape (mode : Encoding) (bytes : List UInt8) : List Char :=
  bytes.flatMap (escapeByte mode.keeps)

/-- `url.QueryUnescape`. -/
def queryUnescape (text : List Char) : Option (List UInt8) :=
  unescapeBytes ((utf8 text).map fun byte => if byte = 0x2b then 0x20 else byte)

/-- `validEncoded`. -/
def validEncoded (mode : Encoding) (text : List Char) : Bool :=
  text.all fun c => c ∈ ['!', '$', '&', '\'', '(', ')', '*', '+', ',', ';', '=', ':', '@', '[',
    ']', '%'] || mode.keeps c

/-- `URL`. The host is as `String` prints it. -/
structure URL where
  scheme : List Char
  opaquePart : List Char
  user : Option (List UInt8 × Option (List UInt8))
  host : List Char
  path : List UInt8
  rawPath : List Char
  omitHost : Bool
  forceQuery : Bool
  rawQuery : List Char
  fragment : List UInt8
  rawFragment : List Char
deriving DecidableEq

/-- A part of a URL with the text it was given in, unless that is the usual one. -/
def setEscaped (mode : Encoding) (text : List Char) : Option (List UInt8 × List Char) :=
  (unescapeBytes (utf8 text)).map fun bytes =>
    (bytes, if text = escape mode bytes then [] else text)

/-- The text of such a part. -/
def escaped (mode : Encoding) (bytes : List UInt8) (raw : List Char) : List Char :=
  if raw ≠ [] ∧ validEncoded mode raw ∧ unescapeBytes (utf8 raw) = some bytes then raw
  else escape mode bytes

/-- `EscapedPath`. -/
def URL.escapedPath (url : URL) : List Char :=
  if url.rawPath ≠ [] ∧ validEncoded .path url.rawPath ∧
      unescapeBytes (utf8 url.rawPath) = some url.path then url.rawPath
  else if url.path = [0x2a] then ['*']
  else escape .path url.path

/-- `getScheme`; `none` for a missing scheme before a colon. -/
def getScheme (text : List Char) : Option (List Char × List Char) :=
  let isScheme (c : Char) := c.isAlphanum || c ∈ ['+', '-', '.']
  match text.takeWhile isScheme, text.dropWhile isScheme with
  | [], ':' :: _ => none
  | first :: name, ':' :: rest => if first.isAlpha then some (first :: name, rest) else some ([], text)
  | _, _ => some ([], text)

/-- `validUserinfo`. -/
def validUserinfo (text : List Char) : Bool :=
  text.all fun c => c.isAlphanum ||
    c ∈ ['-', '.', '_', ':', '~', '!', '$', '&', '\'', '(', ')', '*', '+', ',', ';', '=', '%', '@']

/-- The user info of an authority. -/
def parseUserinfo (text : List Char) : Option (List UInt8 × Option (List UInt8)) :=
  if validUserinfo text then
    match GoStrings.cut ':' text with
    | (name, none) => (unescapeBytes (utf8 name)).map fun name => (name, none)
    | (name, some password) => do
        let name ← unescapeBytes (utf8 name)
        let password ← unescapeBytes (utf8 password)
        return (name, some password)
  else none

section Parse

variable (parseHost : List Char → Option (List Char))

/-- `parseAuthority`. -/
def parseAuthority (authority : List Char) :
    Option (Option (List UInt8 × Option (List UInt8)) × List Char) :=
  match GoStrings.cutLast '@' authority with
  | none => (parseHost authority).map fun host => (none, host)
  | some (userinfo, host) => do
      let host ← parseHost host
      let user ← parseUserinfo userinfo
      return (some user, host)

/-- The URL with a path, and without a fragment. -/
def withPath (scheme : List Char) (user : Option (List UInt8 × Option (List UInt8)))
    (host : List Char) (omitHost : Bool) (query : List Char × Bool) (text : List Char) :
    Option URL :=
  (setEscaped .path text).map fun (path, rawPath) =>
    ⟨scheme, [], user, host, path, rawPath, omitHost, query.2, query.1, [], []⟩

/-- What follows the scheme, without query and fragment. -/
def parseHierarchy (scheme : List Char) (query : List Char × Bool) (rest : List Char) :
    Option URL :=
  if rest.head? ≠ some '/' then
    if scheme ≠ [] then some ⟨scheme, rest, none, [], [], [], false, query.2, query.1, [], []⟩
    else if ':' ∈ (GoStrings.cut '/' rest).1 then none
    else withPath scheme none [] false query rest
  else
    match rest with
    | '/' :: '/' :: authority =>
        if scheme ≠ [] ∨ authority.head? ≠ some '/' then do
          let (user, host) ← parseAuthority parseHost (authority.takeWhile (· ≠ '/'))
          withPath scheme user host false query (authority.dropWhile (· ≠ '/'))
        else withPath scheme none [] false query rest
    | _ => withPath scheme none [] (scheme ≠ []) query rest

/-- The text before a query, the query, and whether it is an empty one that is kept. -/
def cutQuery (text : List Char) : List Char × List Char × Bool :=
  match GoStrings.cut '?' text with
  | (before, some []) => (before, [], true)
  | (before, some query) => (before, query, false)
  | (before, none) => (before, [], false)

/-- `stringContainsCTLByte`. -/
def containsCTL (text : List Char) : Bool :=
  text.any fun c => c.toNat < 0x20 || c.toNat = 0x7f

/-- `url.Parse` without a fragment. -/
def parseWithoutFragment (text : List Char) : Option URL :=
  if containsCTL text then none
  else if text = ['*'] then some ⟨[], [], none, [], [0x2a], [], false, false, [], [], []⟩
  else do
    let (scheme, rest) ← getScheme text
    let (before, query) := cutQuery rest
    parseHierarchy parseHost (scheme.map Char.toLower) query before

/-- `url.Parse`. -/
def parseURL (text : List Char) : Option URL :=
  match GoStrings.cut '#' text with
  | (before, none) | (before, some []) => parseWithoutFragment parseHost before
  | (before, some fragment) => do
      let url ← parseWithoutFragment parseHost before
      let (fragment, rawFragment) ← setEscaped .fragment fragment
      return { url with fragment, rawFragment }

end Parse

/-- `Userinfo.String`. -/
def userText (user : List UInt8 × Option (List UInt8)) : List Char :=
  escape .userPassword user.1 ++
    match user.2 with
    | some password => ':' :: escape .userPassword password
    | none => []

/-- The authority in the text of a URL. -/
def URL.authorityText (url : URL) : List Char :=
  if url.scheme = [] ∧ url.host = [] ∧ url.user = none then []
  else if url.omitHost ∧ url.host = [] ∧ url.user = none then []
  else
    (if url.host ≠ [] ∨ url.path ≠ [] ∨ url.user.isSome then ['/', '/'] else []) ++
      (match url.user with
        | some user => userText user ++ ['@']
        | none => []) ++ url.host

/-- The path in the text of a URL. -/
def URL.pathText (url : URL) : List Char :=
  let path := url.escapedPath
  if path ≠ [] ∧ path.head? ≠ some '/' ∧ url.host ≠ [] then '/' :: path
  else if url.scheme = [] ∧ url.authorityText = [] ∧ ':' ∈ (GoStrings.cut '/' path).1 then
    '.' :: '/' :: path
  else path

/-- `URL.String`. -/
def URL.text (url : URL) : List Char :=
  (if url.scheme ≠ [] then url.scheme ++ [':'] else []) ++
    (if url.opaquePart ≠ [] then url.opaquePart else url.authorityText ++ url.pathText) ++
    (if url.forceQuery ∨ url.rawQuery ≠ [] then '?' :: url.rawQuery else []) ++
    (if url.fragment ≠ [] then '#' :: escaped .fragment url.fragment url.rawFragment else [])

/-- One setting of a query: its key and value, if it is well formed. -/
def parsePair (setting : List Char) : Option (List UInt8 × List UInt8) :=
  if ';' ∈ setting ∨ setting = [] then none
  else do
    let key ← queryUnescape (GoStrings.cut '=' setting).1
    let value ← queryUnescape ((GoStrings.cut '=' setting).2.getD [])
    return (key, value)

/-- `ParseQuery`, less its error: the well-formed settings in order. -/
def parseQuery (query : List Char) : List (List UInt8 × List UInt8) :=
  (query.splitOn '&').filterMap parsePair

section QueryEscape

/-- What holds of all numbers below 256 holds of all bytes. -/
theorem forall_byte {holds : UInt8 → Prop} (all : ∀ n < 256, holds (UInt8.ofNat n))
    (byte : UInt8) : holds byte := by
  have here := all byte.toNat byte.toNat_lt
  rwa [UInt8.ofNat_toNat] at here

/-- Hex digits are unreserved. -/
theorem isUnreserved_of_mem_upperhex {c : Char} (digit : c ∈ upperhex) :
    isUnreserved c = true := by
  have all : upperhex.all isUnreserved = true := by decide
  exact List.all_eq_true.mp all c digit

/-- The characters of an escaped byte: one that is kept, or a percent sign and digits. -/
theorem mem_escapeByte {keep : Char → Bool} {byte : UInt8} {c : Char}
    (member : c ∈ escapeByte keep byte) : keep c = true ∨ c = '%' ∨ isUnreserved c = true := by
  have digit (n : Nat) : isUnreserved (upperhex.getD n '0') = true := by
    rw [List.getD_eq_getElem?_getD]
    cases found : upperhex[n]? with
    | none => decide
    | some c => exact isUnreserved_of_mem_upperhex (List.mem_of_getElem? found)
  unfold escapeByte at member
  dsimp only at member
  split at member
  · rename_i kept
    obtain rfl := List.mem_singleton.mp member
    exact .inl kept.2
  · simp only [List.mem_cons, List.not_mem_nil, or_false] at member
    rcases member with percent | rfl | rfl
    · exact .inr (.inl percent)
    · exact .inr (.inr (digit _))
    · exact .inr (.inr (digit _))

/-- An escaped text has kept characters and percent signs only. -/
theorem mem_escape {mode : Encoding} {bytes : List UInt8} {c : Char}
    (member : c ∈ escape mode bytes) : mode.keeps c = true ∨ c = '%' := by
  obtain ⟨byte, -, occurs⟩ := List.mem_flatMap.mp member
  rcases mem_escapeByte occurs with keeps | percent | unreserved
  · exact .inl keeps
  · exact .inr percent
  · exact .inl ((Bool.or_eq_true _ _).mpr (.inl unreserved))

/-- An escaped path segment has characters of segments and percent signs only. -/
theorem mem_pathEscapeBytes {bytes : List UInt8} {c : Char}
    (member : c ∈ pathEscapeBytes bytes) : isPathSegment c = true ∨ c = '%' := by
  obtain ⟨byte, -, occurs⟩ := List.mem_flatMap.mp member
  rcases mem_escapeByte occurs with keeps | percent | unreserved
  · exact .inl keeps
  · exact .inr percent
  · exact .inl ((Bool.or_eq_true _ _).mpr (.inl unreserved))

/-- An escaped query value has plus signs, percent signs and unreserved characters only. -/
theorem mem_queryEscapeBytes {bytes : List UInt8} {c : Char}
    (member : c ∈ queryEscapeBytes bytes) : c = '+' ∨ c = '%' ∨ isUnreserved c = true := by
  obtain ⟨byte, -, occurs⟩ := List.mem_flatMap.mp member
  split at occurs
  · exact .inl (List.mem_singleton.mp occurs)
  · rcases mem_escapeByte occurs with unreserved | percent | unreserved
    · exact .inr (.inr unreserved)
    · exact .inr (.inl percent)
    · exact .inr (.inr unreserved)

/-- The bytes of an escape sequence, or of a byte that needs none. -/
def encodesByte (byte : UInt8) : List UInt8 → Bool
  | [plain] => plain = byte && plain ≠ 0x25
  | [percent, high, low] =>
      percent = 0x25 && ((unhex high).bind fun high => (unhex low).map (high * 16 + ·)) = some byte
  | _ => false

/-- What encodes a byte is decoded as it. -/
theorem unescapeBytes_of_encodesByte {byte : UInt8} {encoded : List UInt8}
    (encodes : encodesByte byte encoded = true) (rest : List UInt8) :
    unescapeBytes (encoded ++ rest) = (unescapeBytes rest).map (byte :: ·) := by
  unfold encodesByte at encodes
  split at encodes
  · rw [Bool.and_eq_true, decide_eq_true_eq, decide_eq_true_eq] at encodes
    obtain ⟨rfl, notPercent⟩ := encodes
    conv_lhs => unfold unescapeBytes
    exact if_neg notPercent
  · rename_i percent high low
    rw [Bool.and_eq_true, decide_eq_true_eq, decide_eq_true_eq] at encodes
    obtain ⟨rfl, digits⟩ := encodes
    obtain ⟨h, isHigh, digits⟩ := Option.bind_eq_some_iff.mp digits
    obtain ⟨l, isLow, rfl⟩ := Option.map_eq_some_iff.mp digits
    simp only [List.cons_append, List.nil_append, unescapeBytes, if_true, isHigh, isLow]
    cases unescapeBytes rest <;> rfl
  · cases encodes

/-- An escaped byte decodes to itself, unless a percent sign is kept. -/
theorem encodesByte_escapeByte {keep : Char → Bool} (percent : keep '%' = false) (byte : UInt8) :
    encodesByte byte (utf8 (escapeByte keep byte)) = true := by
  have plain : ∀ n < 128, String.utf8EncodeChar (Char.ofNat n) = [UInt8.ofNat n] := by
    decide +kernel
  have digits : ∀ byte : UInt8, encodesByte byte (utf8 ['%',
      upperhex.getD (byte.toNat / 16) '0', upperhex.getD (byte.toNat % 16) '0']) = true := by
    apply forall_byte
    decide +kernel
  unfold escapeByte
  dsimp only
  split
  · rename_i kept
    have other : byte ≠ 0x25 := by
      rintro rfl
      rw [show Char.ofNat (0x25 : UInt8).toNat = '%' from rfl, percent] at kept
      cases kept.2
    rw [utf8, List.flatMap_singleton, plain _ kept.1, UInt8.ofNat_toNat, encodesByte]
    simpa using other
  · exact digits byte

/-- Decoding undoes an escape that keeps no percent sign. -/
theorem unescapeBytes_escapeByte {keep : Char → Bool} (percent : keep '%' = false)
    (bytes : List UInt8) : unescapeBytes (utf8 (bytes.flatMap (escapeByte keep))) = some bytes := by
  induction bytes with
  | nil => rfl
  | cons byte rest ih =>
      rw [List.flatMap_cons, utf8, List.flatMap_append]
      exact (unescapeBytes_of_encodesByte (encodesByte_escapeByte percent byte) _).trans
        (by rw [← utf8, ih]; rfl)

/-- `url.PathUnescape` undoes `url.PathEscape`. -/
theorem unescapeBytes_pathEscapeBytes (bytes : List UInt8) :
    unescapeBytes (utf8 (pathEscapeBytes bytes)) = some bytes :=
  unescapeBytes_escapeByte (by decide) bytes

/-- It undoes the escape of a whole path as well. -/
theorem unescapeBytes_escape_path (bytes : List UInt8) :
    unescapeBytes (utf8 (escape .path bytes)) = some bytes :=
  unescapeBytes_escapeByte (by decide) bytes

/-- `url.QueryUnescape` undoes `url.QueryEscape`. -/
theorem queryUnescape_queryEscapeBytes (bytes : List UInt8) :
    queryUnescape (queryEscapeBytes bytes) = some bytes := by
  unfold queryUnescape
  induction bytes with
  | nil => rfl
  | cons byte rest ih =>
      have encodes : encodesByte byte ((utf8 (queryEscapeBytes [byte])).map fun byte =>
          if byte = 0x2b then 0x20 else byte) = true := by
        revert byte
        apply forall_byte
        decide +kernel
      have pieces : queryEscapeBytes (byte :: rest) =
          queryEscapeBytes [byte] ++ queryEscapeBytes rest := by
        simp [queryEscapeBytes]
      rw [pieces, utf8, List.flatMap_append, List.map_append]
      exact (unescapeBytes_of_encodesByte encodes _).trans (by rw [← utf8, ih]; rfl)

/-- An escaped text has none of the characters that structure a query. -/
theorem not_mem_queryEscapeBytes {separator : Char} (isSeparator : separator ∈ ['&', '=', ';'])
    (bytes : List UInt8) : separator ∉ queryEscapeBytes bytes := by
  intro member
  simp only [List.mem_cons, List.not_mem_nil, or_false] at isSeparator
  rcases mem_queryEscapeBytes member with rfl | rfl | unreserved
  · simp at isSeparator
  · simp at isSeparator
  · rcases isSeparator with rfl | rfl | rfl <;> cases unreserved

/-- Letters and digits are ASCII. -/
theorem lt_of_isAlphanum {c : Char} (alphanum : c.isAlphanum = true) : c.toNat < 128 := by
  have below {last : Char} (ascii : last.val.toNat < 128) (within : c.val ≤ last.val) :
      c.toNat < 128 :=
    Nat.lt_of_le_of_lt (UInt32.le_iff_toNat_le.mp within) ascii
  rcases (Bool.or_eq_true _ _).mp alphanum with alpha | digit
  · rcases (Bool.or_eq_true _ _).mp alpha with upper | lower
    · exact below (by decide) (of_decide_eq_true upper).2
    · exact below (by decide) (of_decide_eq_true ((Bool.and_eq_true _ _).mp lower).2)
  · exact below (by decide) (of_decide_eq_true ((Bool.and_eq_true _ _).mp digit).2)

/-- Unreserved characters are ASCII. -/
theorem lt_of_isUnreserved {c : Char} (unreserved : isUnreserved c = true) : c.toNat < 128 := by
  rw [isUnreserved, Bool.or_eq_true, decide_eq_true_eq] at unreserved
  rcases unreserved with alphanum | mark
  · exact lt_of_isAlphanum alphanum
  · simp only [List.mem_cons, List.not_mem_nil, or_false] at mark
    rcases mark with rfl | rfl | rfl | rfl <;> decide

/-- Unreserved characters are their own escapes. -/
theorem queryEscapeBytes_unreserved {text : List Char} (unreserved : text.all isUnreserved = true) :
    queryEscapeBytes (utf8 text) = text := by
  induction text with
  | nil => rfl
  | cons c rest ih =>
      rw [List.all_cons, Bool.and_eq_true] at unreserved
      have all : ∀ n < 128, isUnreserved (Char.ofNat n) = true →
          queryEscapeBytes (String.utf8EncodeChar (Char.ofNat n)) = [Char.ofNat n] := by
        decide +kernel
      have single := all c.toNat (lt_of_isUnreserved unreserved.1)
      rw [Char.ofNat_toNat] at single
      have pieces : queryEscapeBytes (utf8 (c :: rest)) =
          queryEscapeBytes (String.utf8EncodeChar c) ++ queryEscapeBytes (utf8 rest) := by
        simp [queryEscapeBytes, utf8]
      rw [pieces, single unreserved.1, ih unreserved.2]
      rfl

end QueryEscape

end Restitch.Http
