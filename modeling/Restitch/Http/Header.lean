import Restitch.Std.GoMap
import Restitch.Std.GoStrings

/-!
# Header maps (`net/http`)

A header map holds the values of each field under the canonical form of its
name, in the order of the field lines.
-/

namespace Restitch.Http

open Restitch.Std

/-- The characters of a field name. -/
def isTokenChar (c : Char) : Bool :=
  c.isAlphanum || c ∈ "!#$%&'*+-.^_`|~".toList

/-- Upper case at the start and after a hyphen, lower case elsewhere. -/
def canonicalChars : Bool → List Char → List Char
  | _, [] => []
  | upper, c :: rest =>
      (if upper then c.toUpper else c.toLower) :: canonicalChars (decide (c = '-')) rest

/-- `http.CanonicalHeaderKey`: a name with a character no field name has is
returned as it is. -/
def canonicalHeaderKey (name : String) : String :=
  if name.toList.all isTokenChar then .ofList (canonicalChars true name.toList) else name

/-- `http.Header`. -/
abbrev Header := GoMap String (List String)

namespace Header

/-- `Header.Values`. -/
def values (header : Header) (name : String) : List String :=
  GoMap.getD header (canonicalHeaderKey name) []

/-- `Header.Get`: the first value, or the empty string. -/
def get (header : Header) (name : String) : String :=
  (header.values name).headD ""

/-- `Header.Add`. -/
def add (header : Header) (name value : String) : Header :=
  header.insert (canonicalHeaderKey name) (header.values name ++ [value])

/-- `Header.Set`. -/
def set (header : Header) (name value : String) : Header :=
  header.insert (canonicalHeaderKey name) [value]

/-- The header map of a list of field lines. -/
def ofLines (lines : List (String × String)) : Header :=
  lines.foldl (fun header line => header.add line.1 line.2) ∅

/-- The values of a field among field lines, in order. -/
def fieldValues (lines : List (String × String)) (name : String) : List String :=
  (lines.filter fun line => canonicalHeaderKey line.1 = canonicalHeaderKey name).map (·.2)

/-- An added value is the last one under its canonical name. -/
theorem values_add (header : Header) (added name value : String) :
    (header.add added value).values name =
      header.values name ++
        if canonicalHeaderKey added = canonicalHeaderKey name then [value] else [] := by
  unfold values add GoMap.getD
  by_cases same : canonicalHeaderKey added = canonicalHeaderKey name
  · rw [same, AList.lookup_insert, if_pos rfl, values, same]
    rfl
  · rw [AList.lookup_insert_ne (Ne.symm same), if_neg same, List.append_nil]

/-- The values of a header are those of its lines, in their order. -/
theorem values_foldl_add (lines : List (String × String)) (header : Header) (name : String) :
    (lines.foldl (fun header line => header.add line.1 line.2) header).values name =
      header.values name ++ fieldValues lines name := by
  induction lines generalizing header with
  | nil => simp [fieldValues]
  | cons line rest ih =>
      rw [List.foldl_cons, ih, values_add]
      by_cases same : canonicalHeaderKey line.1 = canonicalHeaderKey name
      · simp [fieldValues, same]
      · simp [fieldValues, same]

/-- A header map lists exactly the values of the field's lines. -/
theorem values_ofLines (lines : List (String × String)) (name : String) :
    (ofLines lines).values name = fieldValues lines name := by
  rw [ofLines, values_foldl_add]
  rfl

end Header

end Restitch.Http
