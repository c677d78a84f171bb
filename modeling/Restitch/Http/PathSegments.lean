import Restitch.Http.UrlParse
import Restitch.Std.Segments

/-!
# The segments of a path

A path is cut at its slashes, dot segments are removed from it, and each segment that
remains is decoded. The text that a URL sends is the one it was given if that has only
characters it may have; otherwise all of it is decoded and encoded again.
-/

namespace Restitch.Http

open Restitch.Std

/-- The dots of a segment as it is written. -/
def textDots (segment : List Char) : Dots :=
  if segment = ['.'] then .here else if segment = ['.', '.'] then .up else .none

/-- The dots of a segment that is decoded. -/
def byteDots (segment : List UInt8) : Dots :=
  if segment = [0x2e] then .here else if segment = [0x2e, 0x2e] then .up else .none

/-- One segment, decoded. -/
def decodeSegment (segment : List Char) : Option (List UInt8) := unescapeBytes (utf8 segment)

/-- The segments of an absolute path. -/
def segmentsOf (path : List Char) : List (List Char) := (path.splitOn '/').tail

/-- What a path leads to: its segments without dots, decoded. -/
def cleanSegments (path : List Char) : Option (List (List UInt8)) :=
  (removeDotSegments textDots [] (segmentsOf path)).mapM decodeSegment

/-- The text that `url.Parse` took the path from. -/
def URL.givenPath (url : URL) : List Char :=
  if url.rawPath = [] then escape .path url.path else url.rawPath

/-- The path that other paths are put behind, without slashes at its end. -/
def URL.basePath (url : URL) : List Char := url.givenPath.rdropWhile (· = '/')

/-- The path given is the one that was set. -/
theorem givenPath_of_setEscaped {text : List Char} {url : URL}
    (isPath : setEscaped .path text = some (url.path, url.rawPath)) : url.givenPath = text := by
  obtain ⟨bytes, decoded, same⟩ := Option.map_eq_some_iff.mp isPath
  obtain ⟨isBytes, isRaw⟩ := Prod.mk.injEq .. ▸ same
  rw [URL.givenPath, ← isRaw, ← isBytes]
  by_cases usual : text = escape .path bytes
  · rw [if_pos usual, if_pos rfl, usual]
  · rw [if_neg usual]
    split
    · rename_i empty
      subst empty
      cases decoded
      exact absurd rfl usual
    · rfl

/-- A byte other than a percent sign stands for itself. -/
theorem unescapeBytes_plain {byte : UInt8} (plain : byte ≠ 0x25) (rest : List UInt8) :
    unescapeBytes (byte :: rest) = (unescapeBytes rest).map (byte :: ·) := by
  conv_lhs => unfold unescapeBytes
  exact if_neg plain

/-- A slash is decoded to itself. -/
theorem decodeSegment_slash (text : List Char) :
    decodeSegment ('/' :: text) = (decodeSegment text).map (0x2f :: ·) := by
  rw [decodeSegment, utf8, List.flatMap_cons]
  exact unescapeBytes_plain (by decide) (utf8 text)

/-- A text that decodes does so without the slashes at its start. -/
theorem exists_decoded_dropWhile {text : List Char} {bytes : List UInt8}
    (decoded : decodeSegment text = some bytes) :
    ∃ bytes, decodeSegment (text.dropWhile (· = '/')) = some bytes := by
  induction text generalizing bytes with
  | nil => exact ⟨bytes, decoded⟩
  | cons c rest ih =>
      by_cases slash : c = '/'
      · subst slash
        rw [decodeSegment_slash] at decoded
        obtain ⟨later, isLater, -⟩ := Option.map_eq_some_iff.mp decoded
        rw [List.dropWhile_cons_of_pos (by simp)]
        exact ih isLater
      · rw [List.dropWhile_cons_of_neg (by simpa using slash)]
        exact ⟨bytes, decoded⟩

/-- What is sent for a path that starts with a slash. -/
theorem escapedPath_of_setEscaped {text : List Char} {url : URL}
    (isPath : setEscaped .path text = some (url.path, url.rawPath))
    (absolute : text.head? = some '/') :
    unescapeBytes (utf8 text) = some url.path ∧
      url.escapedPath = if validEncoded .path text then text else escape .path url.path := by
  obtain ⟨bytes, decoded, same⟩ := Option.map_eq_some_iff.mp isPath
  obtain ⟨isBytes, isRaw⟩ := Prod.mk.injEq .. ▸ same
  subst isBytes
  refine ⟨decoded, ?_⟩
  cases text with
  | nil => cases absolute
  | cons first rest =>
      cases absolute
      have notStar : url.path ≠ [0x2a] := by
        intro star
        have slash : unescapeBytes (utf8 ('/' :: rest)) =
            (unescapeBytes (utf8 rest)).map (0x2f :: ·) := unescapeBytes_plain (by decide) _
        rw [slash, star] at decoded
        obtain ⟨later, -, isStar⟩ := Option.map_eq_some_iff.mp decoded
        cases isStar
      rw [URL.escapedPath, ← isRaw, if_neg notStar]
      by_cases usual : '/' :: rest = escape .path url.path
      · rw [if_pos usual, if_neg (fun other => other.1 rfl), ← usual, ite_self]
      · rw [if_neg usual]
        simp [decoded]

section Split

/-- The segments of an encoded path are its segments, encoded. -/
theorem splitOn_escape (bytes : List UInt8) :
    (escape .path bytes).splitOn '/' = (bytes.splitOn 0x2f).map (escape .path) := by
  have slash : escapeByte Encoding.path.keeps 0x2f = ['/'] := by decide
  have others : ∀ byte : UInt8, byte ≠ 0x2f → '/' ∉ escapeByte Encoding.path.keeps byte := by
    apply forall_byte
    decide +kernel
  exact splitOn_flatMap slash others bytes

/-- A percent sign and two hex digits stand for one byte. -/
theorem unescapeBytes_escape_cons {high low h l : UInt8} (isHigh : unhex high = some h)
    (isLow : unhex low = some l) (rest : List UInt8) :
    unescapeBytes (0x25 :: high :: low :: rest) =
      (unescapeBytes rest).map ((h * 16 + l) :: ·) := by
  rw [unescapeBytes.eq_2, if_pos rfl, isHigh, isLow]
  cases unescapeBytes rest <;> rfl

/-- A percent sign in a decoded text is followed by two hex digits. -/
theorem exists_of_unescapeBytes {high low : UInt8} {rest bytes : List UInt8}
    (decoded : unescapeBytes (0x25 :: high :: low :: rest) = some bytes) :
    ∃ h l later, unhex high = some h ∧ unhex low = some l ∧ unescapeBytes rest = some later ∧
      bytes = (h * 16 + l) :: later := by
  rw [unescapeBytes.eq_2, if_pos rfl] at decoded
  obtain ⟨h, isHigh, decoded⟩ := Option.bind_eq_some_iff.mp decoded
  obtain ⟨l, isLow, decoded⟩ := Option.bind_eq_some_iff.mp decoded
  obtain ⟨later, isLater, done⟩ := Option.bind_eq_some_iff.mp decoded
  cases done
  exact ⟨h, l, later, isHigh, isLow, isLater, rfl⟩

/-- A text that decodes by itself decodes the same before others. -/
theorem unescapeBytes_append {first bytes : List UInt8} (decoded : unescapeBytes first = some bytes)
    (second : List UInt8) :
    unescapeBytes (first ++ second) = (unescapeBytes second).map (bytes ++ ·) := by
  induction first using unescapeBytes.induct generalizing bytes with
  | case1 =>
      cases decoded
      simp
  | case2 high low rest ih =>
      obtain ⟨h, l, later, isHigh, isLow, isLater, rfl⟩ := exists_of_unescapeBytes decoded
      simp only [List.cons_append]
      rw [unescapeBytes_escape_cons isHigh isLow, ih isLater, Option.map_map]
      rfl
  | case3 rest short =>
      rw [unescapeBytes.eq_3 _ _ short, if_pos rfl] at decoded
      cases decoded
  | case4 byte rest plain ih =>
      rw [unescapeBytes_plain plain] at decoded
      obtain ⟨later, isLater, rfl⟩ := Option.map_eq_some_iff.mp decoded
      rw [List.cons_append, unescapeBytes_plain plain, ih isLater, Option.map_map]
      rfl

/-- No escape reaches over a slash. -/
theorem unescapeBytes_slash (first second : List UInt8) :
    unescapeBytes (first ++ 0x2f :: second) =
      (unescapeBytes first).bind fun before =>
        (unescapeBytes second).map fun after => before ++ 0x2f :: after := by
  cases decoded : unescapeBytes first with
  | some before =>
      rw [unescapeBytes_append decoded, unescapeBytes_plain (by decide), Option.map_map]
      rfl
  | none =>
      induction first using unescapeBytes.induct with
      | case1 => cases decoded
      | case2 high low rest ih =>
          simp only [List.cons_append]
          rw [unescapeBytes.eq_2, if_pos rfl] at decoded ⊢
          cases isHigh : unhex high with
          | none => rfl
          | some h =>
              cases isLow : unhex low with
              | none => rfl
              | some l =>
                  have undecoded : unescapeBytes rest = none := by
                    cases isRest : unescapeBytes rest with
                    | none => rfl
                    | some later =>
                        rw [isHigh, isLow, isRest] at decoded
                        cases decoded
                  rw [show unescapeBytes (rest ++ 0x2f :: second) = none from ih undecoded]
                  rfl
      | case3 rest short =>
          -- The escape is cut off by the slash, which is no digit.
          cases rest with
          | nil =>
              cases second with
              | nil => decide
              | cons low later => rw [List.cons_append, List.nil_append, unescapeBytes.eq_2]; rfl
          | cons high rest =>
              cases rest with
              | nil =>
                  simp only [List.cons_append, List.nil_append]
                  rw [unescapeBytes.eq_2, if_pos rfl]
                  cases unhex high <;> rfl
              | cons low rest => exact absurd rfl (short high low rest)
      | case4 byte rest plain ih =>
          rw [unescapeBytes_plain plain, Option.map_eq_none_iff] at decoded
          rw [List.cons_append, unescapeBytes_plain plain, ih decoded]
          rfl

end Split

/-- Different paths are escaped to different texts. -/
theorem escape_path_injective : Function.Injective (escape .path) := by
  intro first second same
  have decoded := unescapeBytes_escape_path first
  rw [same, unescapeBytes_escape_path second] at decoded
  exact (Option.some.inj decoded).symm

/-- A segment is a dot segment exactly if its escaped text is. -/
theorem textDots_escape (bytes : List UInt8) : textDots (escape .path bytes) = byteDots bytes := by
  have here : escape .path bytes = ['.'] ↔ bytes = [0x2e] :=
    escape_path_injective.eq_iff' (by decide)
  have up : escape .path bytes = ['.', '.'] ↔ bytes = [0x2e, 0x2e] :=
    escape_path_injective.eq_iff' (by decide)
  simp only [textDots, byteDots, here, up]

/-- A path that was encoded as a whole leads to what its bytes say. -/
theorem cleanSegments_escape (bytes : List UInt8) :
    cleanSegments (escape .path bytes) =
      some (removeDotSegments byteDots [] (bytes.splitOn 0x2f).tail) := by
  have mapped := removeDotSegments_map (escape .path) textDots_escape [] (bytes.splitOn 0x2f).tail
  rw [cleanSegments, segmentsOf, splitOn_escape, ← List.map_tail]
  refine mapM_eq_some_iff.mpr ?_
  rw [show ([] : List Char) = escape .path [] from rfl, mapped, List.forall₂_map_left_iff,
    List.forall₂_same]
  exact fun segment _ => unescapeBytes_escape_path segment

section DecodesTo

/-- A path decodes segment by segment. -/
theorem decodeSegment_intercalate {segments : List (List Char)} {bytes : List UInt8}
    (nonempty : segments ≠ []) (decoded : decodeSegment (['/'].intercalate segments) = some bytes) :
    ∃ parts, List.Forall₂ (fun segment part => decodeSegment segment = some part) segments parts ∧
      bytes = [0x2f].intercalate parts := by
  induction segments generalizing bytes with
  | nil => exact absurd rfl nonempty
  | cons segment rest ih =>
      cases rest with
      | nil =>
          rw [List.intercalate_singleton] at decoded
          exact ⟨[bytes], .cons decoded .nil, by simp⟩
      | cons next rest =>
          have cut : utf8 (['/'].intercalate (segment :: next :: rest)) =
              utf8 segment ++ 0x2f :: utf8 (['/'].intercalate (next :: rest)) := by
            rw [List.intercalate_cons_cons, List.append_assoc, utf8, List.flatMap_append]
            rfl
          rw [decodeSegment, cut, unescapeBytes_slash] at decoded
          obtain ⟨part, isPart, decoded⟩ := Option.bind_eq_some_iff.mp decoded
          obtain ⟨later, isLater, rfl⟩ := Option.map_eq_some_iff.mp decoded
          obtain ⟨parts, pairs, rfl⟩ := ih (List.cons_ne_nil _ _) isLater
          refine ⟨part :: parts, .cons isPart pairs, ?_⟩
          cases pairs
          simp [List.intercalate_cons_cons]

/-- A path is decoded segment by segment. -/
theorem decodeSegment_splitOn {path : List Char} {bytes : List UInt8}
    (decoded : decodeSegment path = some bytes) :
    ∃ parts, List.Forall₂ (fun segment part => decodeSegment segment = some part)
        (path.splitOn '/') parts ∧ bytes = [0x2f].intercalate parts := by
  refine decodeSegment_intercalate (List.splitOn_ne_nil _ _) ?_
  rwa [List.intercalate_splitOn]

end DecodesTo

section Trim

/-- The segments that are lost with the slashes at the start of a path. -/
def leadingEmpty : List (List Char) → Nat
  | [] :: next :: rest => leadingEmpty (next :: rest) + 1
  | _ => 0

/-- Without the slashes at its start, a path has all segments but these. -/
theorem splitOn_dropWhile (path : List Char) :
    path.splitOn '/' = List.replicate (leadingEmpty (path.splitOn '/')) [] ++
      (path.dropWhile (· = '/')).splitOn '/' := by
  induction path with
  | nil => rfl
  | cons c rest ih =>
      rw [List.splitOn_cons_eq_if_modifyHead]
      cases parts : rest.splitOn '/' with
      | nil => exact absurd parts (List.splitOn_ne_nil _ _)
      | cons first others =>
          by_cases slash : c = '/'
          · subst slash
            rw [parts] at ih
            rw [List.dropWhile_cons_of_pos (by simp)]
            simp only [beq_self_eq_true, if_true, leadingEmpty, List.replicate_succ,
              List.cons_append]
            rw [← ih]
          · rw [List.dropWhile_cons_of_neg (by simp [slash]), List.splitOn_cons_eq_if_modifyHead,
              parts, beq_eq_false_iff_ne.mpr slash]
            rfl

end Trim

section Valid

/-- A text is encoded validly if both parts are. -/
theorem validEncoded_append (mode : Encoding) (first second : List Char) :
    validEncoded mode (first ++ second) = (validEncoded mode first && validEncoded mode second) :=
  List.all_append

/-- Slashes may stand in a path as they are. -/
theorem validEncoded_dropWhile (path : List Char) :
    validEncoded .path (path.dropWhile (· = '/')) = validEncoded .path path := by
  induction path with
  | nil => rfl
  | cons c rest ih =>
      by_cases slash : c = '/'
      · subst slash
        rw [List.dropWhile_cons_of_pos (by simp), ih]
        rfl
      · rw [List.dropWhile_cons_of_neg (by simp [slash])]

end Valid

section Sent

variable {url : URL} {base path : List Char}

/-- The segments of a joined path are those of the base and those of the path. -/
theorem segmentsOf_join (base path : List Char) :
    segmentsOf (base ++ '/' :: path) = segmentsOf base ++ path.splitOn '/' := by
  rw [segmentsOf, List.splitOn_append_cons_self, List.tail_append_of_ne_nil]
  · rfl
  · exact List.splitOn_ne_nil _ _

/-- A path of valid characters leads to the segments of its text. -/
theorem cleanSegments_of_valid (absolute : (base ++ '/' :: path).head? = some '/')
    (isPath : setEscaped .path (base ++ '/' :: path) = some (url.path, url.rawPath))
    (valid : validEncoded .path (base ++ '/' :: path) = true) :
    cleanSegments url.escapedPath =
      (removeDotSegments textDots [] (segmentsOf base ++ path.splitOn '/')).mapM decodeSegment := by
  rw [(escapedPath_of_setEscaped isPath absolute).2, if_pos valid, cleanSegments, segmentsOf_join]

/-- The base and the path decode by themselves. -/
theorem decodeSegment_join {bytes : List UInt8}
    (decoded : decodeSegment (base ++ '/' :: path) = some bytes) :
    ∃ before behind, decodeSegment base = some before ∧ decodeSegment path = some behind ∧
      bytes = before ++ 0x2f :: behind := by
  have cut : utf8 (base ++ '/' :: path) = utf8 base ++ 0x2f :: utf8 path := by
    rw [utf8, List.flatMap_append]
    rfl
  rw [decodeSegment, cut, unescapeBytes_slash] at decoded
  obtain ⟨before, isBefore, decoded⟩ := Option.bind_eq_some_iff.mp decoded
  obtain ⟨behind, isBehind, rfl⟩ := Option.map_eq_some_iff.mp decoded
  exact ⟨before, behind, isBefore, isBehind, rfl⟩

/-- Another path leads to the segments of its bytes. -/
theorem cleanSegments_of_invalid (absolute : (base ++ '/' :: path).head? = some '/')
    (isPath : setEscaped .path (base ++ '/' :: path) = some (url.path, url.rawPath))
    (invalid : validEncoded .path (base ++ '/' :: path) = false) {before behind : List UInt8}
    (isBefore : decodeSegment base = some before) (isBehind : decodeSegment path = some behind) :
    cleanSegments url.escapedPath =
      some (removeDotSegments byteDots [] ((before.splitOn 0x2f).tail ++ behind.splitOn 0x2f)) := by
  obtain ⟨decoded, sent⟩ := escapedPath_of_setEscaped isPath absolute
  obtain ⟨before', behind', isBefore', isBehind', isBytes⟩ := decodeSegment_join decoded
  cases isBefore.symm.trans isBefore'
  cases isBehind.symm.trans isBehind'
  rw [sent, if_neg (by simp [invalid]), cleanSegments_escape, isBytes,
    List.splitOn_append_cons_self, List.tail_append_of_ne_nil (List.splitOn_ne_nil _ _)]

/-- The segments of a path are decoded in place. -/
abbrev DecodesTo : List (List Char) → List (List UInt8) → Prop :=
  List.Forall₂ fun segment part => decodeSegment segment = some part

/-- A dot segment is decoded to something. -/
theorem decodeSegment_ne_nil_of_dots {segment : List Char} {part : List UInt8}
    (dots : textDots segment ≠ .none) (decoded : decodeSegment segment = some part) :
    part ≠ [] := by
  rintro rfl
  unfold textDots at dots
  split at dots
  · rename_i same
    subst same
    cases decoded
  · split at dots
    · rename_i same
      subst same
      cases decoded
    · exact dots rfl

/-- If the last segment is a dot, what is left of it is not what it decodes to. -/
theorem not_decoded_of_last_dot {kept rest : List (List Char)} {before own : List (List UInt8)}
    {last : List Char} (emptyLast : kept.getLast? = some []) (isLast : rest.getLast? = some last)
    (dots : textDots last ≠ .none) (isOwn : DecodesTo rest own) :
    ¬ DecodesTo kept (before ++ own) := by
  intro clean
  obtain ⟨part, isPart, decoded⟩ := getLast?_of_forall₂ isOwn isLast
  obtain ⟨part', isPart', decoded'⟩ := getLast?_of_forall₂ clean emptyLast
  have nonempty : own ≠ [] := by
    rintro rfl
    cases isPart
  rw [List.getLast?_append_of_ne_nil _ nonempty, isPart] at isPart'
  cases isPart'
  cases decoded'
  exact decodeSegment_ne_nil_of_dots dots decoded rfl

/-- Segments behind a base are where they were written, exactly if none of them is a dot
and none was trimmed. -/
theorem removeDotSegments_text_iff {bases rest : List (List Char)}
    {before own : List (List UInt8)} {trimmed : Nat} (nonempty : rest ≠ [])
    (isBefore : DecodesTo (pushSegments textDots [] bases).reverse before)
    (isOwn : DecodesTo (List.replicate trimmed [] ++ rest) own) :
    DecodesTo (removeDotSegments textDots [] (bases ++ rest)) (before ++ own) ↔
      (∀ segment ∈ List.replicate trimmed [] ++ rest, textDots segment = .none) ∧
        trimmed = 0 := by
  constructor
  · intro clean
    have bound := @length_removeDotSegments _ textDots rest nonempty [] bases
    have total := clean.length_eq
    have counted := isBefore.length_eq
    have ownCount := isOwn.length_eq
    rw [List.length_append] at total
    rw [List.length_reverse] at counted
    rw [List.length_append, List.length_replicate] at ownCount
    obtain rfl : trimmed = 0 := by omega
    rw [List.replicate_zero, List.nil_append] at isOwn ⊢
    refine ⟨?_, rfl⟩
    rcases @names_of_length_removeDotSegments _ textDots [] bases rest nonempty (by omega) with
      names | ⟨emptyLast, last, isLast, dots⟩
    · exact names
    · exact absurd clean (not_decoded_of_last_dot emptyLast isLast dots isOwn)
  · rintro ⟨names, rfl⟩
    rw [List.replicate_zero, List.nil_append] at isOwn names
    rw [removeDotSegments_names nonempty names]
    exact List.rel_append isBefore isOwn

/-- What is left of a path that was decoded as a whole has neither dots nor slashes. -/
theorem name_of_mem_removeDotSegments {bytes : List UInt8} {segment : List UInt8}
    (member : segment ∈ removeDotSegments byteDots [] (bytes.splitOn 0x2f).tail) :
    byteDots segment = .none ∧ 0x2f ∉ segment := by
  rw [removeDotSegments, List.mem_append] at member
  rcases member with kept | added
  · rw [List.mem_reverse] at kept
    refine ⟨name_of_mem_pushSegments (by simp) kept, ?_⟩
    rcases mem_pushSegments kept with nothing | inPath
    · cases nothing
    · exact not_mem_of_mem_splitOn (List.mem_of_mem_tail inPath)
  · split at added
    · cases List.mem_singleton.mp added
      exact ⟨rfl, List.not_mem_nil⟩
    · cases added

/-- After a path was decoded as a whole, its segments are where they were written, exactly
if none of them is a dot or has a slash, and what was trimmed is found behind the base. -/
theorem removeDotSegments_bytes_iff {base : List UInt8} {before parts : List (List UInt8)}
    {trimmed : Nat} (nonempty : parts ≠ []) :
    removeDotSegments byteDots []
        ((base.splitOn 0x2f).tail ++ ([0x2f].intercalate parts).splitOn 0x2f) =
        before ++ (List.replicate trimmed [] ++ parts) ↔
      (∀ segment ∈ List.replicate trimmed [] ++ parts,
        byteDots segment = .none ∧ 0x2f ∉ segment) ∧
      (pushSegments byteDots [] (base.splitOn 0x2f).tail).reverse =
        before ++ List.replicate trimmed [] := by
  have whole : (base.splitOn 0x2f).tail ++ ([0x2f].intercalate parts).splitOn 0x2f =
      ((base ++ 0x2f :: [0x2f].intercalate parts).splitOn 0x2f).tail := by
    rw [List.splitOn_append_cons_self, List.tail_append_of_ne_nil (List.splitOn_ne_nil _ _)]
  have kept (names : ∀ segment ∈ List.replicate trimmed [] ++ parts,
      byteDots segment = .none ∧ 0x2f ∉ segment) :
      removeDotSegments byteDots []
        ((base.splitOn 0x2f).tail ++ ([0x2f].intercalate parts).splitOn 0x2f) =
      (pushSegments byteDots [] (base.splitOn 0x2f).tail).reverse ++ parts := by
    have inParts : ∀ segment ∈ parts, byteDots segment = .none ∧ 0x2f ∉ segment :=
      fun segment member => names segment (List.mem_append_right _ member)
    rw [List.splitOn_intercalate _ (fun segment member => (inParts segment member).2) nonempty]
    exact removeDotSegments_names nonempty (fun segment member => (inParts segment member).1) _ _
  constructor
  · intro clean
    have names : ∀ segment ∈ List.replicate trimmed [] ++ parts,
        byteDots segment = .none ∧ 0x2f ∉ segment := by
      intro segment member
      apply name_of_mem_removeDotSegments
      rw [← whole, clean]
      exact List.mem_append_right _ member
    refine ⟨names, ?_⟩
    rw [kept names, ← List.append_assoc] at clean
    exact List.append_cancel_right clean
  · rintro ⟨names, isBase⟩
    rw [kept names, isBase, List.append_assoc]

end Sent

end Restitch.Http
