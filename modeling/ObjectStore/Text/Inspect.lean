import ObjectStore.Text.Concealed

/-!
# Inspection text

A one-line text of a value for people who look into a running program: texts in double quotes,
records as `Name` with their fields in braces, variants with their content in brackets. Quoting
keeps every shown character and writes the others by an escape, so a line break or an invisible
character in a value can be seen.
-/

namespace ObjectStore.Text

/-- The characters that stand for `c` between quotes. -/
def escape (c : Char) : List Char :=
  if c = '"' then ['\\', '"']
  else if c = '\\' then ['\\', '\\']
  else if c = '\n' then ['\\', 'n']
  else if c = '\r' then ['\\', 'r']
  else if c = '\t' then ['\\', 't']
  else if c = '\x00' then ['\\', '0']
  else if isConcealed c then
    ['\\', 'u', '\x7b'] ++ Nat.toDigits 16 c.toNat ++ ['\x7d']
  else [c]

/-- `text` in double quotes, with escapes. -/
def quote (text : String) : String :=
  String.ofList ('"' :: (text.toList.flatMap escape ++ ['"']))

/-- A variant `name` with the content `content`. -/
def variant (name content : String) : String := name ++ "(" ++ content ++ ")"

/-- `None`, or the value as the variant `Some`. -/
def optional {α : Type} (inspect : α → String) : Option α → String
  | none => "None"
  | some a => variant "Some" (inspect a)

/-- A record `name` with fields in their order; a record without fields is its name. -/
def record (name : String) (fields : List (String × String)) : String :=
  match fields with
  | [] => name
  | _ => name ++ " \x7b " ++ ", ".intercalate (fields.map fun f => f.1 ++ ": " ++ f.2) ++ " \x7d"

end ObjectStore.Text
