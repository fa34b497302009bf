import AccessRules.Expr.OfTokens
import AccessRules.Settings
import AccessRules.Spelling
import AccessRules.Token.Scan

/-!
# Expressions from text

A text is measured as it was supplied, then spelled normally, scanned and parsed. So an oversized
text is refused before anything else about it is looked at.
-/

namespace AccessRules.Expr

/-- The tokens of a text, its operators spelled normally. -/
def tokensOf (raw : String) : List Token :=
  Token.scan (Spelling.normalize raw)

/-- The expression that a text spells, within the limits of the settings. -/
def ofText (settings : Settings) (raw : String) : Except SyntaxError Expr :=
  if settings.maxLength.toNat < raw.utf8ByteSize then
    .error (.tooLong raw.utf8ByteSize settings.maxLength.toNat)
  else ofTokens settings.maxNesting.toNat (tokensOf raw)

end AccessRules.Expr
