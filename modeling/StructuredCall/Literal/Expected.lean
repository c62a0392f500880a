import StructuredCall.Literal.Decode

/-!
# Expected outputs

The text that a program is expected to print, from the stored output. Elements are joined by
commas, and the key and the value of an entry by a colon.
-/

namespace StructuredCall.Expected

mutual

/-- A value as a program prints it. -/
def joined : Json → String
  | .array items => ",".intercalate (joinedItems items)
  | .object members => ",".intercalate (joinedMembers members)
  | .string s => s
  | .null => ""
  | .bool b => (Json.bool b).text
  | .number n => n.text

/-- Elements as a program prints them. -/
def joinedItems : List Json → List String
  | [] => []
  | item :: rest => joined item :: joinedItems rest

/-- Entries as a program prints them. -/
def joinedMembers : List (String × Json) → List String
  | [] => []
  | (key, value) :: rest => (key ++ ":" ++ joined value) :: joinedMembers rest

end

/-- The expected text for a result of some type. The text of a string result is taken as it is;
for other scalars it may be a JSON string, and for composites a JSON array or object. -/
def text (returns : DataType) : Json → String
  | .string s =>
    match returns with
    | .scalar .string => s
    | .scalar _ =>
      match Json.ofText? (Text.trim s) with
      | some (.string inner) => inner
      | _ => s
    | .composite _ _ =>
      match Json.ofText? (Text.trim s) with
      | some (.array items) => joined (.array items)
      | some (.object members) => joined (.object members)
      | _ => s
  | value => joined value

end StructuredCall.Expected
