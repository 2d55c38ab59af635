import TemplateCompiler.Text.Basic

/-!
# Groups and argument lists

Code of the host language is opaque except for its quoted strings and brackets, which decide
where a list of arguments ends and where one argument ends and the next begins. Here all kinds of
brackets count alike.
-/
namespace TemplateCompiler.Code

def isQuote (c : Char) : Bool := c == '\'' || c == '"'

def isOpening (c : Char) : Bool := c == '(' || c == '[' || c == '{'

def isClosing (c : Char) : Bool := c == ')' || c == ']' || c == '}'

/-- Where a scan stands with respect to quoted strings; a backslash in a string escapes the
character after it. -/
inductive Quoting
  | outside
  | inside (mark : Char)
  | escaped (mark : Char)
  deriving DecidableEq, Repr

def Quoting.next : Quoting → Char → Quoting
  | outside, c => if isQuote c then inside c else outside
  | inside mark, c => if c = '\\' then escaped mark else if c = mark then outside else inside mark
  | escaped mark, _ => inside mark

/-- Reads through the bracket that brings the depth to 0, and gives what was read and what
follows. -/
def closeGroup? (quoting : Quoting) (depth : Nat) : Text → Option (Text × Text)
  | [] => none
  | c :: rest =>
    if quoting = .outside ∧ isClosing c then
      match depth with
      | 0 => none
      | 1 => some ([c], rest)
      | depth + 2 =>
        (closeGroup? .outside (depth + 1) rest).map fun (group, after) => (c :: group, after)
    else
      (closeGroup? (quoting.next c) (if quoting = .outside ∧ isOpening c then depth + 1 else depth)
        rest).map fun (group, after) => (c :: group, after)

def group? (text : Text) : Option (Text × Text) := closeGroup? .outside 0 text

theorem closeGroup?_eq {quoting : Quoting} {depth : Nat} {text group after : Text}
    (h : closeGroup? quoting depth text = some (group, after)) :
    text = group ++ after ∧ group ≠ [] := by
  induction text generalizing quoting depth group after with
  | nil => simp [closeGroup?] at h
  | cons c rest ih =>
    simp only [closeGroup?] at h
    split at h
    · split at h
      · simp at h
      · simp only [Option.some.injEq, Prod.mk.injEq] at h
        simp [← h.1, ← h.2]
      · obtain ⟨⟨g, a⟩, hg, e⟩ := Option.map_eq_some_iff.1 h
        simp only [Prod.mk.injEq] at e
        simp [← e.1, ← e.2, (ih hg).1]
    · obtain ⟨⟨g, a⟩, hg, e⟩ := Option.map_eq_some_iff.1 h
      simp only [Prod.mk.injEq] at e
      simp [← e.1, ← e.2, (ih hg).1]

/-- The text split at the commas outside quotes and brackets. A closing bracket without an
opening one is passed over. -/
def splitArgumentsFrom (quoting : Quoting) (depth : Nat) : Text → List Text
  | [] => [[]]
  | c :: rest =>
    if quoting = .outside ∧ c = ',' ∧ depth = 0 then [] :: splitArgumentsFrom .outside 0 rest
    else
      Text.consFirst c <| splitArgumentsFrom (quoting.next c)
        (if quoting = .outside then
          if isOpening c then depth + 1 else if isClosing c then depth - 1 else depth
        else depth) rest

def splitArguments (arguments : Text) : List Text := splitArgumentsFrom .outside 0 arguments

/-- The number of arguments written in a list; a blank list has none. -/
def countArguments (arguments : Text) : Nat :=
  if arguments.isBlank then 0 else (splitArguments arguments).length

end TemplateCompiler.Code
