import TemplateCompiler.Code.Group

/-!
# Well-formed expressions

An expression is accepted by its outline alone: brackets of each kind in balance, strings
terminated, and no operator left without an operand at either end.
-/
namespace TemplateCompiler.Code

def closerOf? (c : Char) : Option Char :=
  if c = '(' then some ')' else if c = '[' then some ']' else if c = '{' then some '}' else none

/-- Whether the strings of a text are terminated and its brackets close each other, after which
the brackets in `expected` are closed in order. -/
def balancedFrom (quoting : Quoting) (expected : List Char) : Text → Bool
  | [] => quoting = .outside && expected.isEmpty
  | c :: rest =>
    if quoting = .outside then
      match closerOf? c with
      | some closing => balancedFrom .outside (closing :: expected) rest
      | none =>
        if isClosing c then
          match expected with
          | [] => false
          | closing :: expected => closing == c && balancedFrom .outside expected rest
        else balancedFrom (quoting.next c) expected rest
    else balancedFrom (quoting.next c) expected rest

def isBalanced (code : Text) : Bool := balancedFrom .outside [] code

/-- Operators that need an operand before them. -/
def isInfixOperator (c : Char) : Bool := "*/%.=<>&|^?:,".toList.contains c

/-- Operators that need an operand after them. -/
def isOpenOperator (c : Char) : Bool := "+-*/%.=<>&|^?:,".toList.contains c

/-- Whether an operator at the end lacks its operand; `++` and `--` need none. -/
def hasDanglingEnd (code : Text) : Bool :=
  match code.reverse with
  | c :: d :: _ => isOpenOperator c && !(c == '+' && d == '+') && !(c == '-' && d == '-')
  | [c] => isOpenOperator c
  | [] => false

/-- Whether an operator at the start lacks its operand; a decimal fraction may begin with its
point. -/
def hasDanglingStart (code : Text) : Bool :=
  match code with
  | '.' :: d :: _ => !d.isDigit
  | c :: _ => isInfixOperator c
  | [] => false

def isExpression (code : Text) : Bool :=
  let code := code.trim
  !code.isEmpty && isBalanced code && !hasDanglingEnd code && !hasDanglingStart code

end TemplateCompiler.Code
