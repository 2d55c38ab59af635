import TemplateCompiler.Text.Basic

/-!
# String literals

A single-quoted literal escapes the backslash and the quote; the body of a double-quoted one
escapes the backslash, the quote and the dollar sign, which would begin a variable.
-/
namespace TemplateCompiler.Code

/-- Puts a backslash before each character that satisfies `special`. -/
def escape (special : Char → Bool) (text : Text) : Text :=
  text.flatMap fun c => if special c then ['\\', c] else [c]

def unescape : Text → Text
  | [] => []
  | '\\' :: c :: rest => c :: unescape rest
  | c :: rest => c :: unescape rest

def isSingleQuotedSpecial (c : Char) : Bool := c == '\\' || c == '\''

def isDoubleQuotedSpecial (c : Char) : Bool := c == '\\' || c == '"' || c == '$'

def singleQuoted (text : Text) : Text := '\'' :: escape isSingleQuotedSpecial text ++ ['\'']

def doubleQuotedBody (text : Text) : Text := escape isDoubleQuotedSpecial text

@[simp] theorem escape_nil (special : Char → Bool) : escape special [] = [] := rfl

@[simp] theorem escape_append (special : Char → Bool) (a b : Text) :
    escape special (a ++ b) = escape special a ++ escape special b := by
  simp [escape]

theorem escape_eq_self {special : Char → Bool} {text : Text} (h : ∀ c ∈ text, special c = false) :
    escape special text = text := by
  induction text with
  | nil => rfl
  | cons c rest ih =>
    have hrest := ih fun d hd => h d (List.mem_cons_of_mem c hd)
    have hstep : escape special (c :: rest) = (if special c then ['\\', c] else [c]) ++
        escape special rest := rfl
    rw [hstep, h c List.mem_cons_self, hrest]
    rfl

theorem unescape_escape {special : Char → Bool} (h : special '\\') (text : Text) :
    unescape (escape special text) = text := by
  induction text with
  | nil => rfl
  | cons c rest ih =>
    by_cases hc : special c
    · simpa [escape, hc, unescape] using ih
    · have : c ≠ '\\' := fun e => hc (e ▸ h)
      have step : escape special (c :: rest) = c :: escape special rest := by simp [escape, hc]
      rw [step]
      unfold unescape
      split
      · simp_all
      · simp_all
      · simp_all

end TemplateCompiler.Code
