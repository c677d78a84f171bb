import Mathlib.Data.List.Dedup
import Restitch.Reqlog.Record

/-!
# What redaction hides

`RedactURL` shows the keys of the settings that `ParseQuery` accepts. A query without any
such setting is shown as it is.
-/

namespace Restitch.Reqlog

open Restitch.Http Restitch.Std

/-- A query has a well-formed setting of a key. -/
def HasKey (key : List UInt8) (query : List Char) : Prop :=
  ∃ value, (key, value) ∈ parseQuery query

/-- What `RedactURL` shows of a query. -/
def shownQuery (query : List Char) : List Char :=
  if queryKeys query = [] then query else redactedQuery (queryKeys query)

section Query

variable {first second query : List Char}

/-- The keys listed are those of the query. -/
theorem mem_queryKeys {key : List UInt8} : key ∈ queryKeys query ↔ HasKey key query := by
  rw [queryKeys, List.mem_insertionSort, List.mem_dedup, List.mem_map]
  constructor
  · rintro ⟨⟨_, value⟩, member, rfl⟩
    exact ⟨value, member⟩
  · rintro ⟨value, member⟩
    exact ⟨(key, value), member, rfl⟩

/-- Every key is listed once. -/
theorem nodup_queryKeys (query : List Char) : (queryKeys query).Nodup :=
  (List.perm_insertionSort _ _).nodup_iff.mpr (List.nodup_dedup _)

/-- The keys are listed in order. -/
theorem sorted_queryKeys (query : List Char) : (queryKeys query).Pairwise (· ≤ ·) :=
  List.pairwise_insertionSort _ _

/-- Two queries have one list of keys exactly if they have the same keys. -/
theorem queryKeys_eq_iff :
    queryKeys first = queryKeys second ↔ ∀ key, HasKey key first ↔ HasKey key second := by
  constructor
  · intro same key
    rw [← mem_queryKeys, ← mem_queryKeys, same]
  · intro same
    have permuted : (queryKeys first).Perm (queryKeys second) := by
      refine (List.perm_ext_iff_of_nodup (nodup_queryKeys _) (nodup_queryKeys _)).mpr ?_
      intro key
      rw [mem_queryKeys, mem_queryKeys, same key]
    exact permuted.eq_of_pairwise' (sorted_queryKeys _) (sorted_queryKeys _)

/-- No key is listed exactly if the query has none. -/
theorem queryKeys_eq_nil_iff : queryKeys query = [] ↔ ∀ key, ¬ HasKey key query := by
  rw [List.eq_nil_iff_forall_not_mem]
  simp only [mem_queryKeys]

/-- A redacted setting is well formed, with the same key. -/
theorem parsePair_redacted (key : List UInt8) :
    parsePair (queryEscapeBytes key ++ '=' :: redacted.toList) =
      some (key, utf8 redacted.toList) := by
  have plain : ';' ∉ queryEscapeBytes key ++ '=' :: redacted.toList := by
    intro member
    rcases List.mem_append.mp member with inKey | inValue
    · exact not_mem_queryEscapeBytes (by decide) key inKey
    · revert inValue
      decide
  have cut : GoStrings.cut '=' (queryEscapeBytes key ++ '=' :: redacted.toList) =
      (queryEscapeBytes key, some redacted.toList) :=
    GoStrings.cut_append (not_mem_queryEscapeBytes (by decide) key)
  have value : queryUnescape redacted.toList = some (utf8 redacted.toList) := by decide +kernel
  rw [parsePair, if_neg (by simp [plain]), cut]
  dsimp only [Option.getD_some]
  rw [queryUnescape_queryEscapeBytes, value]
  rfl

/-- A redacted query parses as its keys, each with the redaction mark. -/
theorem parseQuery_redactedQuery {keys : List (List UInt8)} (some_ : keys ≠ []) :
    parseQuery (redactedQuery keys) = keys.map fun key => (key, utf8 redacted.toList) := by
  have free : ∀ setting ∈ keys.map fun key => queryEscapeBytes key ++ '=' :: redacted.toList,
      '&' ∉ setting := by
    intro setting isSetting member
    obtain ⟨key, -, rfl⟩ := List.mem_map.mp isSetting
    rcases List.mem_append.mp member with inKey | inValue
    · exact not_mem_queryEscapeBytes (by decide) key inKey
    · revert inValue
      decide
  have pairs : (parsePair ∘ fun key => queryEscapeBytes key ++ '=' :: redacted.toList) =
      some ∘ fun key => (key, utf8 redacted.toList) := funext parsePair_redacted
  rw [parseQuery, redactedQuery, List.splitOn_intercalate '&' free (by simpa using some_),
    List.filterMap_map, pairs, List.filterMap_eq_map]

/-- Redaction keeps the keys. -/
theorem queryKeys_shownQuery (query : List Char) :
    queryKeys (shownQuery query) = queryKeys query := by
  unfold shownQuery
  split
  · rfl
  · rename_i keyed
    rw [queryKeys, parseQuery_redactedQuery keyed, List.map_map]
    have keys : (Prod.fst ∘ fun key : List UInt8 => (key, utf8 redacted.toList)) = id := rfl
    rw [keys, List.map_id, (nodup_queryKeys query).dedup]
    exact (sorted_queryKeys query).insertionSort_eq

/-- Two queries look the same exactly if they have the same keys and, if they have none, are
the same. -/
theorem shownQuery_eq_iff :
    shownQuery first = shownQuery second ↔
      (∀ key, HasKey key first ↔ HasKey key second) ∧
        ((∀ key, ¬ HasKey key first) → first = second) := by
  rw [← queryKeys_eq_iff, ← queryKeys_eq_nil_iff]
  constructor
  · intro same
    have keys : queryKeys first = queryKeys second := by
      rw [← queryKeys_shownQuery first, same, queryKeys_shownQuery]
    refine ⟨keys, fun none_ => ?_⟩
    rwa [shownQuery, shownQuery, if_pos none_, if_pos (keys ▸ none_)] at same
  · rintro ⟨keys, unkeyed⟩
    by_cases none_ : queryKeys first = []
    · rw [unkeyed none_]
    · rw [shownQuery, shownQuery, if_neg none_, if_neg (keys ▸ none_), keys]

end Query

section Text

/-- The text of a URL determines its query. -/
theorem URL.text_rawQuery_inj (url : URL) (first second : List Char) :
    URL.text { url with rawQuery := first } = URL.text { url with rawQuery := second } ↔
      first = second := by
  constructor
  · intro same
    have queries : (if url.forceQuery ∨ first ≠ [] then '?' :: first else []) =
        if url.forceQuery ∨ second ≠ [] then '?' :: second else [] :=
      List.append_cancel_left (List.append_cancel_right same)
    split at queries <;> split at queries
    · exact List.tail_eq_of_cons_eq queries
    · cases queries
    · cases queries
    · rename_i firstNone secondNone
      rw [not_or, not_not] at firstNone secondNone
      rw [firstNone.2, secondNone.2]
  · rintro rfl
    rfl

variable {parseHost : List Char → Option (List Char)}

/-- A URL without its user info. -/
def withoutUser (url : URL) : URL :=
  if url.user.isSome then { url with user := some (utf8 redacted.toList, none) } else url

/-- A URL that parses is shown without its user and the values of its query. -/
theorem redactURL_of_parseURL {raw : String} {url : URL}
    (parsed : parseURL parseHost raw.toList = some url) :
    redactURL parseHost raw =
      .ofList (URL.text { withoutUser url with rawQuery := shownQuery url.rawQuery }) := by
  have query : (withoutUser url).rawQuery = url.rawQuery := by
    unfold withoutUser
    split <;> rfl
  rw [redactURL, parsed]
  dsimp only
  rw [← withoutUser, query, shownQuery]
  split
  · rw [← query]
  · rfl

end Text

section Differ

/-- Two queries with the same settings, but for the values. -/
def SameSettings (first second : List Char) : Prop :=
  List.Forall₂ (fun one other =>
      (GoStrings.cut '=' one).1 = (GoStrings.cut '=' other).1 ∧
        (GoStrings.cut '=' one).2.isSome = (GoStrings.cut '=' other).2.isSome)
    (first.splitOn '&') (second.splitOn '&')

/-- Two URLs that differ only in the values of query parameters and user info. -/
structure URLsDifferInValues (first second : URL) : Prop where
  others : { first with user := second.user, rawQuery := second.rawQuery } = second
  user : first.user.isSome = second.user.isSome
  query : SameSettings first.rawQuery second.rawQuery

variable (parseHost : List Char → Option (List Char))

/-- The texts of two such URLs. Texts that are no URLs have no parts to compare. -/
def DifferInValues (first second : String) : Prop :=
  match parseURL parseHost first.toList, parseURL parseHost second.toList with
  | some first, some second => URLsDifferInValues first second
  | none, none => True
  | _, _ => False

/-- The well-formed settings of two URLs have the same keys, and if there are none the queries
are the same. -/
def SameShownKeys (first second : String) : Prop :=
  ∀ firstURL secondURL, parseURL parseHost first.toList = some firstURL →
    parseURL parseHost second.toList = some secondURL →
    (∀ key, HasKey key firstURL.rawQuery ↔ HasKey key secondURL.rawQuery) ∧
      ((∀ key, ¬ HasKey key firstURL.rawQuery) → firstURL.rawQuery = secondURL.rawQuery)

variable {parseHost} {first second : String}

/-- Redaction makes two such URLs equal exactly if they have the same keys to show. -/
theorem redactURL_eq_iff (differ : DifferInValues parseHost first second) :
    redactURL parseHost first = redactURL parseHost second ↔
      SameShownKeys parseHost first second := by
  unfold DifferInValues at differ
  split at differ
  · rename_i firstURL secondURL isFirst isSecond
    have others : withoutUser firstURL =
        { withoutUser secondURL with rawQuery := firstURL.rawQuery } := by
      obtain ⟨same, user, -⟩ := differ
      rw [← same] at user ⊢
      unfold withoutUser
      dsimp only at user ⊢
      rw [← user]
      split
      · rfl
      · rename_i absent
        have noFirst := Option.not_isSome_iff_eq_none.mp absent
        have noSecond : secondURL.user = none := Option.not_isSome_iff_eq_none.mp (user ▸ absent)
        rw [noSecond, ← noFirst]
    rw [redactURL_of_parseURL isFirst, redactURL_of_parseURL isSecond, String.ofList_inj, others]
    dsimp only
    rw [URL.text_rawQuery_inj (withoutUser secondURL), shownQuery_eq_iff]
    constructor
    · intro shown one other isOne isOther
      cases isFirst.symm.trans isOne
      cases isSecond.symm.trans isOther
      exact shown
    · intro shown
      exact shown firstURL secondURL isFirst isSecond
  · rename_i isFirst isSecond
    rw [redactURL, redactURL, isFirst, isSecond]
    refine ⟨fun _ _ _ isOne => ?_, fun _ => rfl⟩
    cases isFirst.symm.trans isOne
  · exact differ.elim

end Differ

end Restitch.Reqlog
