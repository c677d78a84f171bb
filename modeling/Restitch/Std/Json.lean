import Mathlib.Data.List.Basic

/-!
# JSON texts

A parser for JSON, the encoder of Go's `encoding/json`, and the concrete syntax of
a JSON text in which some values are holes. The parser reads every such text, with
the holes filled in, as the value it stands for.
-/

namespace Restitch.Std.Json

/-- The white space of JSON. -/
def isSpace (c : Char) : Bool := c ∈ [' ', '\t', '\n', '\r']

/-- The characters that a number is made of. -/
def isNumberChar (c : Char) : Bool := c.isDigit || c ∈ ['-', '+', '.', 'e', 'E']

/-- The exponent of a number. -/
def isExponent : List Char → Bool
  | [] => true
  | e :: rest =>
      (e = 'e' || e = 'E') &&
        match rest with
        | sign :: digits =>
            if sign = '+' || sign = '-' then digits ≠ [] && digits.all Char.isDigit
            else rest.all Char.isDigit
        | [] => false

/-- The fraction and the exponent of a number. -/
def isFraction : List Char → Bool
  | '.' :: rest =>
      rest.takeWhile Char.isDigit ≠ [] && isExponent (rest.dropWhile Char.isDigit)
  | rest => isExponent rest

/-- A number without its sign. -/
def isUnsigned : List Char → Bool
  | '0' :: rest => isFraction rest
  | c :: rest => c.isDigit && isFraction (rest.dropWhile Char.isDigit)
  | [] => false

/-- `number` of RFC 8259. -/
def isNumber : List Char → Bool
  | '-' :: rest => isUnsigned rest
  | text => isUnsigned text

/-- A number as it is written. -/
structure Number where
  text : List Char
  valid : isNumber text = true ∧ text.all isNumberChar = true
deriving DecidableEq

/-- A JSON value. The members of an object are in the order of the text. -/
inductive Value where
  | null
  | bool (value : Bool)
  | number (value : Number)
  | string (value : List Char)
  | array (items : List Value)
  | object (members : List (List Char × Value))

/-! ### Strings -/

/-- The value of a hexadecimal digit. -/
def hexValue (c : Char) : Option Nat :=
  if c.isDigit then some (c.toNat - 48)
  else if 'a' ≤ c ∧ c ≤ 'f' then some (c.toNat - 87)
  else if 'A' ≤ c ∧ c ≤ 'F' then some (c.toNat - 55)
  else none

/-- The value of four hexadecimal digits. -/
def hex4 (a b c d : Char) : Option Nat := do
  let a ← hexValue a
  let b ← hexValue b
  let c ← hexValue c
  let d ← hexValue d
  return ((a * 16 + b) * 16 + c) * 16 + d

/-- The character of an escape with one letter. -/
def shortEscape (c : Char) : Option Char :=
  match c with
  | '"' => some '"'
  | '\\' => some '\\'
  | '/' => some '/'
  | 'b' => some '\x08'
  | 'f' => some '\x0c'
  | 'n' => some '\n'
  | 'r' => some '\r'
  | 't' => some '\t'
  | _ => none

/-- The character of a pair of surrogates, if the two units are one. -/
def surrogatePair (high low : Nat) : Option Char :=
  if 0xd800 ≤ high ∧ high < 0xdc00 ∧ 0xdc00 ≤ low ∧ low < 0xe000 then
    some (.ofNat (0x10000 + (high - 0xd800) * 0x400 + (low - 0xdc00)))
  else none

/-- The character of one unit; a surrogate alone becomes the replacement character. -/
def unitChar (unit : Nat) : Char :=
  if 0xd800 ≤ unit ∧ unit < 0xe000 then '\ufffd' else .ofNat unit

/-- A character of a string, or the unit of a `\u` escape. -/
inductive Piece where
  | char (c : Char)
  | unit (value : Nat)
deriving DecidableEq

/-- The pieces of what stands between the quotes of a string. -/
def stringPieces : List Char → Option (List Piece)
  | [] => some []
  | '\\' :: rest =>
      match rest with
      | 'u' :: a :: b :: c :: d :: rest => do
          let unit ← hex4 a b c d
          let later ← stringPieces rest
          return .unit unit :: later
      | c :: rest => do
          let c ← shortEscape c
          let later ← stringPieces rest
          return .char c :: later
      | [] => none
  | c :: rest => if c.toNat < 0x20 then none else (stringPieces rest).map (.char c :: ·)

/-- Join the pieces; the unit before them may be the first of a pair. -/
def joinPieces : Option Nat → List Piece → List Char
  | none, [] => []
  | some high, [] => [unitChar high]
  | none, .char c :: rest => c :: joinPieces none rest
  | some high, .char c :: rest => unitChar high :: c :: joinPieces none rest
  | none, .unit unit :: rest => joinPieces (some unit) rest
  | some high, .unit unit :: rest =>
      match surrogatePair high unit with
      | some pair => pair :: joinPieces none rest
      | none => unitChar high :: joinPieces (some unit) rest

/-- The text of a string, from what stands between its quotes. -/
def unquote (content : List Char) : Option (List Char) :=
  (stringPieces content).map (joinPieces none)

/-- What stands before the closing quote, and what follows it. -/
def scanString : List Char → Option (List Char × List Char)
  | [] => none
  | '"' :: rest => some ([], rest)
  | '\\' :: c :: rest => (scanString rest).map fun found => ('\\' :: c :: found.1, found.2)
  | c :: rest => (scanString rest).map fun found => (c :: found.1, found.2)

/-- A string behind its opening quote. -/
def parseString (text : List Char) : Option (List Char × List Char) := do
  let (content, rest) ← scanString text
  let value ← unquote content
  return (value, rest)

/-! ### Values -/

/-- Skip white space. -/
def skipSpace (text : List Char) : List Char := text.dropWhile isSpace

/-- A literal or a number. -/
def parseScalar : List Char → Option (Value × List Char)
  | 'n' :: 'u' :: 'l' :: 'l' :: rest => some (.null, rest)
  | 't' :: 'r' :: 'u' :: 'e' :: rest => some (.bool true, rest)
  | 'f' :: 'a' :: 'l' :: 's' :: 'e' :: rest => some (.bool false, rest)
  | text =>
      let token := text.takeWhile isNumberChar
      if valid : isNumber token = true ∧ token.all isNumberChar = true then
        some (.number ⟨token, valid⟩, text.dropWhile isNumberChar)
      else none

mutual

/-- A value, and what follows it. -/
def parseValue : Nat → List Char → Option (Value × List Char)
  | 0, _ => none
  | fuel + 1, text =>
      match skipSpace text with
      | '"' :: rest => (parseString rest).map fun found => (.string found.1, found.2)
      | '[' :: rest =>
          match skipSpace rest with
          | ']' :: rest => some (.array [], rest)
          | rest => (parseItems fuel rest).map fun found => (.array found.1, found.2)
      | '{' :: rest =>
          match skipSpace rest with
          | '}' :: rest => some (.object [], rest)
          | rest => (parseMembers fuel rest).map fun found => (.object found.1, found.2)
      | rest => parseScalar rest

/-- The items of an array and its closing bracket. -/
def parseItems : Nat → List Char → Option (List Value × List Char)
  | 0, _ => none
  | fuel + 1, text => do
      let (item, rest) ← parseValue fuel text
      match skipSpace rest with
      | ',' :: rest => (parseItems fuel rest).map fun found => (item :: found.1, found.2)
      | ']' :: rest => return ([item], rest)
      | _ => none

/-- The members of an object and its closing brace. -/
def parseMembers : Nat → List Char → Option (List (List Char × Value) × List Char)
  | 0, _ => none
  | fuel + 1, text => do
      match skipSpace text with
      | '"' :: rest =>
          let (key, rest) ← parseString rest
          match skipSpace rest with
          | ':' :: rest =>
              let (value, rest) ← parseValue fuel rest
              match skipSpace rest with
              | ',' :: rest =>
                  (parseMembers fuel rest).map fun found => ((key, value) :: found.1, found.2)
              | '}' :: rest => return ([(key, value)], rest)
              | _ => none
          | _ => none
      | _ => none

end

/-- Parse a text that holds one value. -/
def parse (text : List Char) : Option Value :=
  match parseValue text.length text with
  | some (value, rest) => if skipSpace rest = [] then some value else none
  | none => none

/-! ### The encoder -/

/-- The digits of `\u00XX`. -/
def lowerhex (digit : Nat) : Char := "0123456789abcdef".toList.getD digit '0'

/-- `appendString` for one character, with the HTML escapes of `json.Marshal`. -/
def encodeChar (c : Char) : List Char :=
  if c = '"' ∨ c = '\\' then ['\\', c]
  else if c = '\x08' then ['\\', 'b']
  else if c = '\x0c' then ['\\', 'f']
  else if c = '\n' then ['\\', 'n']
  else if c = '\r' then ['\\', 'r']
  else if c = '\t' then ['\\', 't']
  else if c.toNat < 0x20 ∨ c = '<' ∨ c = '>' ∨ c = '&' then
    ['\\', 'u', '0', '0', lowerhex (c.toNat / 16), lowerhex (c.toNat % 16)]
  else if c = '\u2028' ∨ c = '\u2029' then
    ['\\', 'u', '2', '0', '2', lowerhex (c.toNat % 16)]
  else [c]

def encodeString (text : List Char) : List Char := '"' :: (text.flatMap encodeChar ++ ['"'])

mutual

/-- `json.Marshal` of a value whose maps are given by their members in order. -/
def encode : Value → List Char
  | .null => ['n', 'u', 'l', 'l']
  | .bool true => ['t', 'r', 'u', 'e']
  | .bool false => ['f', 'a', 'l', 's', 'e']
  | .number number => number.text
  | .string text => encodeString text
  | .array items => '[' :: (encodeItems items ++ [']'])
  | .object members => '{' :: (encodeMembers members ++ ['}'])

def encodeItems : List Value → List Char
  | [] => []
  | [item] => encode item
  | item :: rest => encode item ++ ',' :: encodeItems rest

def encodeMembers : List (List Char × Value) → List Char
  | [] => []
  | [(key, value)] => encodeString key ++ ':' :: encode value
  | (key, value) :: rest => encodeString key ++ ':' :: (encode value ++ ',' :: encodeMembers rest)

end

/-! ### Texts with holes -/

/-- A run of white space. -/
abbrev Space := { text : List Char // text.all isSpace = true }

/-- A string as it is written between its quotes, with the text it stands for. -/
structure StringToken where
  content : List Char
  value : List Char
  valid : scanString (content ++ ['"']) = some (content, []) ∧ unquote content = some value

def StringToken.text (token : StringToken) : List Char := '"' :: (token.content ++ ['"'])

mutual

/-- The concrete syntax of a value in which some values are holes. -/
inductive Skeleton (Hole : Type) where
  | hole (hole : Hole)
  | null
  | bool (value : Bool)
  | number (value : Number)
  | string (token : StringToken)
  | emptyArray (space : Space)
  | array (items : Items Hole)
  | emptyObject (space : Space)
  | object (members : Members Hole)

/-- The items of an array, with the space around them. -/
inductive Items (Hole : Type) where
  | last (before : Space) (item : Skeleton Hole) (after : Space)
  | cons (before : Space) (item : Skeleton Hole) (after : Space) (rest : Items Hole)

/-- The members of an object, with the space around the keys and values. -/
inductive Members (Hole : Type) where
  | last (before : Space) (key : StringToken) (colon : Space) (gap : Space)
      (value : Skeleton Hole) (after : Space)
  | cons (before : Space) (key : StringToken) (colon : Space) (gap : Space)
      (value : Skeleton Hole) (after : Space) (rest : Members Hole)

end

variable {Hole : Type}

section Render

variable (fill : Hole → List Char)

mutual

/-- The text, with a text for each hole. -/
def Skeleton.render : Skeleton Hole → List Char
  | .hole hole => fill hole
  | .null => encode .null
  | .bool value => encode (.bool value)
  | .number value => value.text
  | .string token => token.text
  | .emptyArray space => '[' :: (space.val ++ [']'])
  | .array items => '[' :: (items.render ++ [']'])
  | .emptyObject space => '{' :: (space.val ++ ['}'])
  | .object members => '{' :: (members.render ++ ['}'])

def Items.render : Items Hole → List Char
  | .last before item after => before.val ++ item.render ++ after.val
  | .cons before item after rest =>
      before.val ++ item.render ++ after.val ++ ',' :: rest.render

def Members.render : Members Hole → List Char
  | .last before key colon gap value after =>
      before.val ++ key.text ++ colon.val ++ ':' :: (gap.val ++ value.render ++ after.val)
  | .cons before key colon gap value after rest =>
      before.val ++ key.text ++ colon.val ++ ':' :: (gap.val ++ value.render ++ after.val ++
        ',' :: rest.render)

end

end Render

section Value

variable (values : Hole → Value)

mutual

/-- The value, with a value for each hole. -/
def Skeleton.value : Skeleton Hole → Value
  | .hole hole => values hole
  | .null => .null
  | .bool value => .bool value
  | .number value => .number value
  | .string token => .string token.value
  | .emptyArray _ => .array []
  | .array items => .array items.value
  | .emptyObject _ => .object []
  | .object members => .object members.value

def Items.value : Items Hole → List Value
  | .last _ item _ => [item.value]
  | .cons _ item _ rest => item.value :: rest.value

def Members.value : Members Hole → List (List Char × Value)
  | .last _ key _ _ value _ => [(key.value, value.value)]
  | .cons _ key _ _ value _ rest => (key.value, value.value) :: rest.value

end

end Value

mutual

/-- The holes, from left to right. -/
def Skeleton.holes : Skeleton Hole → List Hole
  | .hole hole => [hole]
  | .null | .bool _ | .number _ | .string _ | .emptyArray _ | .emptyObject _ => []
  | .array items => items.holes
  | .object members => members.holes

def Items.holes : Items Hole → List Hole
  | .last _ item _ => item.holes
  | .cons _ item _ rest => item.holes ++ rest.holes

def Members.holes : Members Hole → List Hole
  | .last _ _ _ _ value _ => value.holes
  | .cons _ _ _ _ value _ rest => value.holes ++ rest.holes

end

end Restitch.Std.Json
