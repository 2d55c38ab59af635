import TemplateCompiler.Text.Basic

/-!
# Globs

A glob is a pattern for whole paths, byte by byte. Stars and question marks match slashes too; two
stars that make up a component of their own stand for any number of components.
-/
namespace TemplateCompiler

namespace Glob

inductive Token
  | literal (c : Char)
  /-- Any one byte. -/
  | any
  | anything
  /-- The components before the rest of the pattern, if any. -/
  | leading
  /-- A slash and the components after the pattern so far. -/
  | trailing
  /-- One or more slashes with the components between them. -/
  | between
  /-- One byte in some range or, negated, in none. -/
  | oneOf (negated : Bool) (ranges : List (Char × Char))
  /-- One of some sequences; if there are none, nothing. -/
  | alternatives (branches : List (List Token))

/-- Whether a token stands for no bytes, because all its branches are empty. -/
def Token.isVoid : Token → Bool
  | .alternatives [] => true
  | _ => false

/-! ## Reading -/

/-- A group of alternatives that is not closed yet: the tokens before it and its branches so far,
both last one first. -/
structure Group where
  before : List Token
  branches : List (List Token)

/-- What has been read: the tokens of the innermost branch, last one first, and the groups
around it. -/
structure Reading where
  tokens : List Token
  groups : List Group

namespace Reading

def push (reading : Reading) (token : Token) : Reading :=
  { reading with tokens := token :: reading.tokens }

def openGroup (reading : Reading) : Reading := ⟨[], ⟨reading.tokens, []⟩ :: reading.groups⟩

/-- Ends a branch of the innermost group; a comma outside groups stands for itself. -/
def comma (reading : Reading) : Reading :=
  match reading.groups with
  | [] => reading.push (.literal ',')
  | group :: groups => ⟨[], ⟨group.before, reading.tokens.reverse :: group.branches⟩ :: groups⟩

/-- Ends the innermost group, and leaves its empty branches out. -/
def closeGroup? (reading : Reading) : Option Reading :=
  match reading.groups with
  | [] => none
  | group :: groups =>
    let branches := (reading.tokens.reverse :: group.branches).filter (!·.all Token.isVoid)
    some ⟨.alternatives branches :: group.before, groups⟩

/-- Takes in two stars that stand between two characters, and says whether a slash after them is
part of what they mean. -/
def stars (reading : Reading) (previous next : Option Char) : Reading × Bool :=
  let plain := ((reading.push .anything).push .anything, false)
  let grouped := !reading.groups.isEmpty
  match reading.tokens with
  | [] => if next.all (· == '/') then (reading.push .leading, true) else plain
  | token :: tokens =>
    let begins := previous == some '/' ||
      grouped && (previous == some ',' || previous == some '\x7b')
    let ends := next.isNone || grouped && (next == some ',' || next == some '\x7d')
    if begins && (ends || next == some '/') then
      let token := match token with
        | .leading => .leading
        | .trailing => .trailing
        | _ => if ends then .trailing else .between
      (⟨token :: tokens, reading.groups⟩, next == some '/')
    else plain

end Reading

/-- Reads the rest of a class. The ranges so far come last one first; `dash` says that the last
one waits for its end, and `first` that there is none yet. -/
def ranges? (ranges : List (Char × Char)) (dash first : Bool) :
    Text → Option (List (Char × Char) × Text)
  | [] => none
  | c :: rest =>
    if c = ']' ∧ !first then some (if dash then ('-', '-') :: ranges else ranges, rest)
    else if c = '-' ∧ !first ∧ !dash then ranges? ranges true false rest
    else match dash, ranges with
      | true, (low, _) :: ranges =>
        if c < low then none else ranges? ((low, c) :: ranges) false false rest
      | _, ranges => ranges? ((c, c) :: ranges) false false rest

theorem length_of_ranges? {ranges found : List (Char × Char)} {dash first : Bool}
    {text after : Text} (h : ranges? ranges dash first text = some (found, after)) :
    after.length < text.length := by
  fun_induction ranges? ranges dash first text with
  | case1 => simp at h
  | case2 =>
    simp only [Option.some.injEq, Prod.mk.injEq] at h
    simp [h.2]
  | case3 _ _ _ _ _ _ _ ih => exact Nat.lt_succ_of_lt (ih h)
  | case4 => simp at h
  | case5 _ _ _ _ _ _ _ _ _ ih => exact Nat.lt_succ_of_lt (ih h)
  | case6 _ _ _ _ _ _ _ _ ih => exact Nat.lt_succ_of_lt (ih h)

/-- The sign after the opening bracket of a class that negates it. -/
def isNegation (c : Char) : Bool := c == '!' || c == '^'

def class? (text : Text) : Option (Token × Text) :=
  let negated := text.head?.any isNegation
  (ranges? [] false true (if negated then text.tail else text)).map fun (ranges, after) =>
  (.oneOf negated ranges, after)

theorem length_of_class? {text after : Text} {token : Token}
    (h : class? text = some (token, after)) : after.length < text.length := by
  simp only [class?, Option.map_eq_some_iff, Prod.mk.injEq] at h
  obtain ⟨⟨found, rest⟩, read, _, same⟩ := h
  have shorter := length_of_ranges? read
  have : (if text.head?.any isNegation then text.tail else text).length ≤ text.length := by
    split <;> simp
  simp only [← same]
  omega

def readFrom (reading : Reading) (previous : Option Char) (text : Text) : Option (List Token) :=
  match text with
  | [] => if reading.groups.isEmpty then some reading.tokens.reverse else none
  | c :: rest =>
    if c = '?' then readFrom (reading.push .any) (some c) rest
    else if c = '*' then
      match rest with
      | '*' :: rest =>
        let (reading, slash) := reading.stars previous rest.head?
        if slash then readFrom reading (some '/') rest.tail else readFrom reading (some '*') rest
      | rest => readFrom (reading.push .anything) (some c) rest
    else if c = '[' then
      match h : class? rest with
      | none => none
      | some (token, after) =>
        have := length_of_class? h
        readFrom (reading.push token) (some ']') after
    else if c = '\x7b' then readFrom reading.openGroup (some c) rest
    else if c = '\x7d' then
      (reading.closeGroup?).bind fun reading => readFrom reading (some c) rest
    else if c = ',' then readFrom reading.comma (some c) rest
    else if c = '\\' then
      match rest with
      | [] => none
      | c :: rest => readFrom (reading.push (.literal c)) (some c) rest
    else readFrom (reading.push (.literal c)) (some c) rest
termination_by text.length

/-! ## Matching -/

def bytes (text : Text) : List UInt8 := text.flatMap String.utf8EncodeChar

def slash : UInt8 := '/'.toUInt8

/-- What is left after each prefix. -/
def suffixes : List UInt8 → List (List UInt8)
  | [] => [[]]
  | b :: bytes => (b :: bytes) :: suffixes bytes

def afterSlashes : List UInt8 → List (List UInt8)
  | [] => []
  | b :: bytes => if b = slash then bytes :: afterSlashes bytes else afterSlashes bytes

/-- The ranges of bytes that a range of characters stands for. One with longer characters is read
byte by byte, with the dash between the last byte of the first and the first byte of the last. -/
def byteRanges (range : Char × Char) : List (UInt8 × UInt8) :=
  let alone (b : UInt8) : UInt8 × UInt8 := (b, b)
  let first := String.utf8EncodeChar range.1
  let last := String.utf8EncodeChar range.2
  if range.1 = range.2 then first.map alone
  else match first.getLast?, last with
    | some low, high :: after => first.dropLast.map alone ++ (low, high) :: after.map alone
    | _, _ => []

def isIn (ranges : List (Char × Char)) (b : UInt8) : Bool :=
  (ranges.flatMap byteRanges).any fun (low, high) => low ≤ b && b ≤ high

mutual

/-- What may be left of some bytes after a token. -/
def Token.rests : Token → List UInt8 → List (List UInt8)
  | .literal c, bytes =>
    if (String.utf8EncodeChar c).isPrefixOf bytes then [bytes.drop c.utf8Size] else []
  | .any, bytes => match bytes with
    | [] => []
    | _ :: bytes => [bytes]
  | .anything, bytes => suffixes bytes
  | .leading, bytes => bytes :: afterSlashes bytes
  | .trailing, bytes => match bytes with
    | [] => []
    | b :: bytes => if b = slash then suffixes bytes else []
  | .between, bytes => match bytes with
    | [] => []
    | b :: bytes => if b = slash then bytes :: afterSlashes bytes else []
  | .oneOf negated ranges, bytes => match bytes with
    | [] => []
    | b :: bytes => if isIn ranges b != negated then [bytes] else []
  | .alternatives [], bytes => [bytes]
  | .alternatives branches, bytes => restsOfBranches branches bytes

def restsOfSequence : List Token → List (List UInt8) → List (List UInt8)
  | [], rests => rests
  | token :: tokens, rests => restsOfSequence tokens (rests.flatMap token.rests).eraseDups

def restsOfBranches : List (List Token) → List UInt8 → List (List UInt8)
  | [], _ => []
  | branch :: branches, bytes =>
    restsOfSequence branch [bytes] ++ restsOfBranches branches bytes

end

end Glob

structure Glob where
  tokens : List Glob.Token

namespace Glob

def parse? (pattern : Text) : Option Glob := (readFrom ⟨[], []⟩ none pattern).map Glob.mk

/-- Whether the glob matches a whole path. Two stars alone match every path. -/
def matchesPath (glob : Glob) (path : Text) : Bool :=
  match glob.tokens with
  | [.leading] => true
  | tokens => (restsOfSequence tokens [bytes path]).contains []

end Glob

end TemplateCompiler
