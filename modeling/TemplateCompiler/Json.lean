import TemplateCompiler.Text.Number

/-!
# JSON

Values, their reading and their writing. A text is first cut into tokens; the values are then
built from the tokens.
-/
namespace TemplateCompiler

inductive Json
  | null
  | bool (value : Bool)
  /-- A number as it is written. -/
  | number (written : Text)
  /-- A string; one that escapes half of a surrogate pair denotes no text. -/
  | string (text : Option Text)
  | array (items : List Json)
  /-- The values by key, in order and as often as they are written. -/
  | object (entries : List (Option Text × Json))

namespace Json

/-! ## Strings -/

/-- A piece of a string: a character, or a unit of UTF-16 in digits. -/
inductive Piece
  | char (c : Char)
  | unit (code : Nat)

/-- The character of two units that make a surrogate pair. -/
def pair? (high low : Nat) : Option Char :=
  if 0xd800 ≤ high ∧ high < 0xdc00 ∧ 0xdc00 ≤ low ∧ low < 0xe000 then
    some (Char.ofNat (0x10000 + (high - 0xd800) * 0x400 + (low - 0xdc00)))
  else none

def denoted? : List Piece → Option Text
  | [] => some []
  | .char c :: pieces => (denoted? pieces).map (c :: ·)
  | .unit code :: pieces =>
    if code.isValidChar then (denoted? pieces).map (Char.ofNat code :: ·)
    else match pieces with
      | .unit low :: pieces =>
        (pair? code low).bind fun c => (denoted? pieces).map (c :: ·)
      | _ => none

def escapes : List (Char × Char) :=
  [('"', '"'), ('\\', '\\'), ('/', '/'), ('b', '\x08'), ('f', '\x0c'), ('n', '\n'), ('r', '\r'),
    ('t', '\t')]

/-- The pieces of a string after its opening quote, and what follows its closing quote. -/
def pieces? : Text → Option (List Piece × Text)
  | [] => none
  | '"' :: rest => some ([], rest)
  | '\\' :: 'u' :: a :: b :: c :: d :: rest =>
    (Text.digitsFrom? 16 0 [a, b, c, d]).bind fun code =>
    (pieces? rest).map fun (pieces, after) => (.unit code :: pieces, after)
  | '\\' :: c :: rest =>
    (escapes.lookup c).bind fun c =>
    (pieces? rest).map fun (pieces, after) => (.char c :: pieces, after)
  | c :: rest =>
    if c < ' ' then none
    else (pieces? rest).map fun (pieces, after) => (.char c :: pieces, after)

theorem length_of_pieces? {text after : Text} {pieces : List Piece}
    (h : pieces? text = some (pieces, after)) : after.length < text.length := by
  fun_induction pieces? text generalizing pieces after with
  | case1 => simp at h
  | case2 rest =>
    simp only [Option.some.injEq, Prod.mk.injEq] at h
    simp [h.2]
  | case3 a b c d rest ih =>
    simp only [Option.bind_eq_some_iff, Option.map_eq_some_iff, Prod.mk.injEq] at h
    obtain ⟨_, _, ⟨inner, rest'⟩, read, _, same⟩ := h
    have := ih read
    simp only [← same, List.length_cons]
    omega
  | case4 c rest _ ih =>
    simp only [Option.bind_eq_some_iff, Option.map_eq_some_iff, Prod.mk.injEq] at h
    obtain ⟨_, _, ⟨inner, rest'⟩, read, _, same⟩ := h
    have := ih read
    simp only [← same, List.length_cons]
    omega
  | case5 => simp at h
  | case6 c rest _ _ _ _ ih =>
    simp only [Option.map_eq_some_iff, Prod.mk.injEq] at h
    obtain ⟨⟨inner, rest'⟩, read, _, same⟩ := h
    have := ih read
    simp only [← same, List.length_cons]
    omega

/-! ## Tokens -/

inductive Token
  | openArray
  | closeArray
  | openObject
  | closeObject
  | comma
  | colon
  /-- A value without parts. -/
  | atom (value : Json)

def marks : List (Char × Token) :=
  [('[', .openArray), (']', .closeArray), ('\x7b', .openObject), ('\x7d', .closeObject),
    (',', .comma), (':', .colon)]

def isBlank (c : Char) : Bool := c == ' ' || c == '\t' || c == '\n' || c == '\r'

/-- The characters of numbers and of the words for the other atoms. -/
def isWordChar (c : Char) : Bool := c.isAlphanum || c == '+' || c == '-' || c == '.'

def afterDigits? (text : Text) : Option Text :=
  if text.head?.any Char.isDigit then some (text.dropWhile Char.isDigit) else none

/-- What follows the whole part of a number; there is no zero before other digits. -/
def afterWhole? : Text → Option Text
  | '0' :: rest => some rest
  | text => afterDigits? text

def afterFraction? : Text → Option Text
  | '.' :: rest => afterDigits? rest
  | text => some text

def afterExponent? : Text → Option Text
  | [] => some []
  | c :: rest =>
    if c.toLower ≠ 'e' then some (c :: rest)
    else match rest with
      | '+' :: rest => afterDigits? rest
      | '-' :: rest => afterDigits? rest
      | rest => afterDigits? rest

def isNumber (word : Text) : Bool :=
  let unsigned := match word with
    | '-' :: rest => rest
    | rest => rest
  (((afterWhole? unsigned).bind afterFraction?).bind afterExponent?) == some []

def ofWord? (word : Text) : Option Json :=
  if word = "null".toList then some .null
  else if word = "true".toList then some (.bool true)
  else if word = "false".toList then some (.bool false)
  else if isNumber word then some (.number word)
  else none

def tokens? (text : Text) : Option (List Token) :=
  match text with
  | [] => some []
  | c :: rest =>
    if isBlank c then tokens? rest
    else if c = '"' then
      match h : pieces? rest with
      | none => none
      | some (pieces, after) =>
        have := length_of_pieces? h
        (tokens? after).map (.atom (.string (denoted? pieces)) :: ·)
    else
      match marks.lookup c with
      | some mark => (tokens? rest).map (mark :: ·)
      | none =>
        if isWordChar c then
          have := (List.dropWhile_sublist isWordChar (l := rest)).length_le
          (ofWord? (c :: rest.takeWhile isWordChar)).bind fun value =>
          (tokens? (rest.dropWhile isWordChar)).map (.atom value :: ·)
        else none
termination_by text.length

/-! ## Values -/

mutual

/-- Reads a value of at most the given depth, counted in steps of reading. -/
def value? : Nat → List Token → Option (Json × List Token)
  | _, .atom value :: rest => some (value, rest)
  | _, .openArray :: .closeArray :: rest => some (.array [], rest)
  | _, .openObject :: .closeObject :: rest => some (.object [], rest)
  | depth + 1, .openArray :: rest =>
    (items? depth rest).map fun (items, rest) => (.array items, rest)
  | depth + 1, .openObject :: rest =>
    (entries? depth rest).map fun (entries, rest) => (.object entries, rest)
  | _, _ => none

def items? : Nat → List Token → Option (List Json × List Token)
  | 0, _ => none
  | depth + 1, tokens =>
    (value? depth tokens).bind fun (value, rest) =>
    match rest with
    | .closeArray :: rest => some ([value], rest)
    | .comma :: rest => (items? depth rest).map fun (items, rest) => (value :: items, rest)
    | _ => none

def entries? : Nat → List Token → Option (List (Option Text × Json) × List Token)
  | 0, _ => none
  | depth + 1, .atom (.string key) :: .colon :: tokens =>
    (value? depth tokens).bind fun (value, rest) =>
    match rest with
    | .closeObject :: rest => some ([(key, value)], rest)
    | .comma :: rest =>
      (entries? depth rest).map fun (entries, rest) => ((key, value) :: entries, rest)
    | _ => none
  | _, _ => none

end

/-- Reads a text that holds one value. -/
def parse? (text : Text) : Option Json :=
  (tokens? text).bind fun tokens =>
  match value? (2 * tokens.length) tokens with
  | some (value, []) => some value
  | _ => none

/-! ## Writing -/

/-- Two digits of base sixteen, for a control character. -/
def hexPair (n : Nat) : Text := [Nat.digitChar (n / 16), Nat.digitChar (n % 16)]

def escaped (c : Char) : Text :=
  match escapes.find? fun entry => entry.2 == c && c != '/' with
  | some (name, _) => ['\\', name]
  | none => if c < ' ' then "\\u00".toList ++ hexPair c.toNat else [c]

def quoted (text : Text) : Text := '"' :: text.flatMap escaped ++ ['"']

mutual

/-- The value on one line, without blanks. -/
def render : Json → Text
  | .null => "null".toList
  | .bool true => "true".toList
  | .bool false => "false".toList
  | .number written => written
  | .string text => quoted (text.getD [])
  | .array items => '[' :: Text.join [','] (renderItems items) ++ [']']
  | .object entries => '\x7b' :: Text.join [','] (renderEntries entries) ++ ['\x7d']

def renderItems : List Json → List Text
  | [] => []
  | item :: items => render item :: renderItems items

def renderEntries : List (Option Text × Json) → List Text
  | [] => []
  | (key, value) :: entries =>
    (quoted (key.getD []) ++ ':' :: render value) :: renderEntries entries

end

def ofText (text : Text) : Json := .string (some text)

def ofNat (n : Nat) : Json := .number (Text.ofNat n)

def ofOption {α : Type} (f : α → Json) : Option α → Json
  | none => .null
  | some a => f a

def ofEntries (entries : List (String × Json)) : Json :=
  .object (entries.map fun (key, value) => (some key.toList, value))

/-! ## Taking apart -/

def text? : Json → Option Text
  | .string text => text
  | _ => none

/-- The items of an array, all taken apart by one rule. -/
def list? {α : Type} (f : Json → Option α) : Json → Option (List α)
  | .array items => items.mapM f
  | _ => none

/-- The value or, for null, none. -/
def optional? {α : Type} (f : Json → Option α) : Json → Option (Option α)
  | .null => some none
  | json => (f json).map some

/-- The entries of an object, all of whose keys must denote texts. -/
def keyed? : Json → Option (List (Text × Json))
  | .object entries => entries.mapM fun (key, value) => key.map fun key => (key, value)
  | _ => none

/-- The values of a record's fields in the order of their names. They stand in an object, whose
other keys are ignored, or make up an array, the last ones perhaps missing. -/
def fields? (names : List Text) (json : Json) : Option (List (Option Json)) :=
  match json with
  | .array items =>
    if items.length ≤ names.length then
      some (items.map some ++ List.replicate (names.length - items.length) none)
    else none
  | json =>
    (keyed? json).bind fun entries =>
    names.mapM fun name =>
      match entries.filter (·.1 == name) with
      | [] => some none
      | [entry] => some (some entry.2)
      | _ => none

end Json

end TemplateCompiler
