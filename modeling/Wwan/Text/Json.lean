import Wwan.Text.Number

/-!
# JSON text

Values whose members keep their order, and their compact text.
-/

namespace Wwan.Text

/-- A JSON value with natural numbers only; the members of an object are in output order. -/
inductive Json where
  | null
  | number (n : Nat)
  | text (s : String)
  | array (items : List Json)
  | object (members : List (String × Json))

namespace Json

/-- A character as it stands in a JSON text: only quotes, backslashes and controls are escaped. -/
def escapeChar (c : Char) : String :=
  if c = '"' then "\\\""
  else if c = '\\' then "\\\\"
  else if c = '\n' then "\\n"
  else if c = '\r' then "\\r"
  else if c = '\t' then "\\t"
  else if c.toNat = 8 then "\\b"
  else if c.toNat = 12 then "\\f"
  else if c.toNat < 32 then "\\u" ++ padZeros 4 (hexDigits c.toNat)
  else c.toString

/-- A JSON string. -/
def quote (s : String) : String :=
  "\"" ++ String.join (s.toList.map escapeChar) ++ "\""

mutual

/-- The compact text of a value: no blank between its parts. -/
def render : Json → String
  | .null => "null"
  | .number n => toString n
  | .text s => quote s
  | .array items => "[" ++ ",".intercalate (renderItems items) ++ "]"
  | .object members => "\x7b" ++ ",".intercalate (renderMembers members) ++ "\x7d"

/-- The texts of an array's items. -/
def renderItems : List Json → List String
  | [] => []
  | j :: js => j.render :: renderItems js

/-- The texts of an object's members. -/
def renderMembers : List (String × Json) → List String
  | [] => []
  | (key, j) :: rest => (quote key ++ ":" ++ j.render) :: renderMembers rest

end

/-- A text, or null where there is none. -/
def ofText? : Option String → Json
  | none => .null
  | some s => .text s

end Json

end Wwan.Text
