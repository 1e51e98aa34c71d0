import Cdenv.Fallible
import Cdenv.Profile

/-!
# JSON text

The writer of compact JSON: no blanks, object fields in document order.
-/
namespace Cdenv.JsonText
open TextScan

def hexDigit (n : ℕ) : Char := "0123456789abcdef".toList.getD n '0'

/-- Only the quote, the backslash and the control characters below U+0020 have an escape. -/
def escapeChar (c : Char) : Text :=
  if c = '"' then ['\\','"']
  else if c = '\\' then ['\\','\\']
  else if c = '\n' then ['\\','n']
  else if c = '\r' then ['\\','r']
  else if c = '\t' then ['\\','t']
  else if c.toNat = 8 then ['\\','b']
  else if c.toNat = 12 then ['\\','f']
  else if c.toNat < 32 then ['\\','u','0','0',hexDigit (c.toNat / 16),hexDigit (c.toNat % 16)]
  else [c]

def quote (s : Text) : Text := '"'::s.flatMap escapeChar++['"']

mutual
def render : Json → Text
  | .null => "null"
  | .bool true => "true"
  | .bool false => "false"
  | .number text => text
  | .string value => quote value
  | .array items => '['::[','].intercalate (renderItems items)++[']']
  | .object fields => '\x7b'::[','].intercalate (renderFields fields)++['\x7d']

def renderItems : List Json → List Text
  | [] => []
  | item::rest => render item::renderItems rest

def renderFields : List (Text × Json) → List Text
  | [] => []
  | (name, value)::rest => (quote name++ ':'::render value)::renderFields rest
end

theorem render_number (text : Text) : render (.number text) = text := rfl

theorem render_string (value : Text) : render (.string value) = quote value := rfl

theorem render_array (items : List Json) :
    render (.array items) = '['::[','].intercalate (renderItems items)++[']'] := rfl

theorem render_object (fields : List (Text × Json)) :
    render (.object fields) = '\x7b'::[','].intercalate (renderFields fields)++['\x7d'] := rfl

end Cdenv.JsonText
