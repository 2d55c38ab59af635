import TemplateCompiler.Code.Literal
import TemplateCompiler.Options

/-!
# Output statements

Every construct becomes one statement that writes the value of an expression. The blank after
its end keeps the line break that may follow, which the host language would swallow.
-/
namespace TemplateCompiler.Code

inductive Content
  /-- Plain text. -/
  | literal (text : Text)
  /-- Text with code to run, whose output is captured. -/
  | dynamic (text : Text)
  deriving DecidableEq, Repr

def Content.classify (markers : Markers) (text : Text) : Content :=
  if markers.isDynamic text then dynamic text else literal text

/-- The statement that writes the value of an expression. In pretty mode it follows the white
space it replaces, and `indent` is put before all lines of the value but the first. -/
def output (mode : OutputMode) (lead indent expression : Text) : Text :=
  match mode with
  | .pretty =>
    lead ++ "<?php _h\\out(".toList ++ expression ++ ", ".toList ++ singleQuoted indent ++
      ") ?> ".toList
  | .compact => "<?php echo ".toList ++ expression ++ " ?> ".toList

def captured : Text := "ob_get_clean()".toList

/-- Captures the output of `content` and writes the value of an expression that uses it. -/
def buffered (mode : OutputMode) (lead indent content closingLead expression : Text) : Text :=
  (if mode = .pretty then lead else []) ++ "<?php ob_start() ?>".toList ++ content ++
    closingLead ++ output mode [] indent expression

/-- How content is handed to the expression that uses it. -/
def Content.argument : Content → Text
  | literal text => singleQuoted text
  | dynamic _ => captured

end TemplateCompiler.Code
