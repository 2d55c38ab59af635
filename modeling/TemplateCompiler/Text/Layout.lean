import TemplateCompiler.Text.Place
import TemplateCompiler.Name

/-!
# White space around constructs

A construct claims white space before it, so that the code generated for it keeps the layout of
its template. In these functions `before` is the text before the construct, nearest character
first, and only the `fresh` nearest characters of it may be claimed.
-/
namespace TemplateCompiler.Layout

/-- The white space that leads up to a construct. There is none for a construct glued to a word,
which is no construct; white space after a word leaves its first character to the word. -/
def lead? (before : Text) (fresh : Nat) : Option Text :=
  let run := (before.take fresh).takeWhile Unicode.isWhitespace
  if (before.drop run.length).head?.any isWordChar then
    match run.reverse with
    | [] => none
    | _ :: lead => some lead
  else some run.reverse

/-- The spaces and tabs before a construct that is the first thing on its line. -/
def lineIndent (before : Text) (fresh : Nat) : Text :=
  let run := (before.take fresh).takeWhile Text.isSpaceOrTab
  if (before.drop run.length).head?.all (fun c => c == '\n' || c == '\r') then run.reverse else []

/-- What stands after the last line break; nothing if there is no line break. -/
def indentOf (space : Text) : Text :=
  let indent := (space.reverse.takeWhile fun c => c != '\n' && c != '\r').reverse
  if indent.length < space.length then indent else []

theorem indentOf_subset (space : Text) : indentOf space ⊆ space := by
  unfold indentOf
  simp only
  split
  · intro c hc
    have hwithin := List.takeWhile_prefix (l := space.reverse) fun c => c != '\n' && c != '\r'
    exact List.mem_reverse.mp (hwithin.subset (List.mem_reverse.mp hc))
  · exact List.nil_subset space

/-- Removes `indent` from the start of each line that begins with it. -/
def dedent (indent text : Text) : Text :=
  (linesOf text).flatMap fun line => (Text.after? indent line).getD line
where
  /-- The lines of the text, each with the line feed that ends it. -/
  linesOf : Text → List Text
    | [] => []
    | c :: rest =>
      if c = '\n' then ['\n'] :: linesOf rest else Text.consFirst c (linesOf rest)

theorem flatten_linesOf (text : Text) : (dedent.linesOf text).flatten = text := by
  induction text with
  | nil => rfl
  | cons c rest ih =>
    by_cases h : c = '\n' <;> simp [dedent.linesOf, h, ih]

end TemplateCompiler.Layout
