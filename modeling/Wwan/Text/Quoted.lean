import Wwan.Text.Number
import Wwan.Text.Printable

/-!
# Quoted text

A text in double quotes, or a character in single quotes, as messages show it: the quote that is in
use and the backslash are written behind a backslash, tab, line feed, carriage return and NUL by
their letters, and every other character that cannot be shown by its code in braces.
-/

namespace Wwan.Text

/-- A character as it stands between quotes of the kind `quote`. -/
def escapeChar (quote c : Char) : String :=
  if c = quote ∨ c = '\\' then String.ofList ['\\', c]
  else if c = '\t' then "\\t"
  else if c = '\r' then "\\r"
  else if c = '\n' then "\\n"
  else if c.toNat = 0 then "\\0"
  else if isPrintable c then c.toString
  else "\\u\x7b" ++ hexDigits c.toNat ++ "\x7d"

/-- A text in double quotes. -/
def quote (s : String) : String :=
  "\"" ++ String.join (s.toList.map (escapeChar '"')) ++ "\""

/-- A character in single quotes. -/
def quoteChar (c : Char) : String :=
  "'" ++ escapeChar '\'' c ++ "'"

end Wwan.Text
