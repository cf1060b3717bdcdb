import FramedJson.Json.Basic
import FramedJson.Binary64.Text

namespace FramedJson

structure Layout where
  separator : List Char
  colon : List Char

namespace Layout

def compact : Layout := ⟨[','], [':']⟩

def spaced : Layout := ⟨[',', ' '], [':', ' ']⟩

end Layout

namespace Number

def render : Number → List Char
  | .int value _ =>
    if value < 0 then '-' :: Nat.toDigits 10 value.natAbs else Nat.toDigits 10 value.natAbs
  | .real value => value.render Binary64.jsonStyle

end Number

namespace Json

def escapeChar (c : Char) : List Char :=
  if c = '"' then ['\\', '"']
  else if c = '\\' then ['\\', '\\']
  else if 0x20 ≤ c.toNat then [c]
  else if c.toNat = 8 then ['\\', 'b']
  else if c.toNat = 9 then ['\\', 't']
  else if c.toNat = 10 then ['\\', 'n']
  else if c.toNat = 12 then ['\\', 'f']
  else if c.toNat = 13 then ['\\', 'r']
  else ['\\', 'u', '0', '0', Nat.digitChar (c.toNat / 16), Nat.digitChar (c.toNat % 16)]

def renderString (text : String) : List Char :=
  '"' :: (text.toList.flatMap escapeChar ++ ['"'])

mutual

def render (layout : Layout) : Json → List Char
  | .null => ['n', 'u', 'l', 'l']
  | .bool true => ['t', 'r', 'u', 'e']
  | .bool false => ['f', 'a', 'l', 's', 'e']
  | .num value => value.render
  | .str text => renderString text
  | .arr [] => ['[', ']']
  | .arr (item :: rest) => '[' :: (render layout item ++ renderItems layout rest)
  | .obj [] => ['{', '}']
  | .obj ((name, value) :: rest) =>
    '{' :: (renderString name ++ layout.colon ++ render layout value ++
      renderMembers layout rest)

/-- The elements that follow the first, and the closing bracket. -/
def renderItems (layout : Layout) : List Json → List Char
  | [] => [']']
  | item :: rest => layout.separator ++ render layout item ++ renderItems layout rest

def renderMembers (layout : Layout) : List (String × Json) → List Char
  | [] => ['}']
  | (name, value) :: rest =>
    layout.separator ++ renderString name ++ layout.colon ++ render layout value ++
      renderMembers layout rest
end

def text (layout : Layout) (value : Json) : String := String.ofList (render layout value)

def compact (value : Json) : String := value.text .compact

end Json
end FramedJson
