import WildcardNet.Json.Token
/-!
# JSON values

A value is read from tokens by recursive descent, and written as its tokens one after another.
Members of an object are kept in order and may repeat. Numbers are kept as they are written.
-/

namespace WildcardNet

inductive Json
  | null
  | bool (value : Bool)
  | number (literal : List Char)
  | string (text : Option (List Char))
  | array (elements : List Json)
  | object (members : List (Option (List Char) × Json))

namespace Json

mutual

/-- The value at the head of the tokens, and the rest after it. -/
def readValue? : Nat → List Token → Option (Json × List Token)
  | _ + 1, .null :: rest => some (.null, rest)
  | _ + 1, .bool b :: rest => some (.bool b, rest)
  | _ + 1, .number literal :: rest => some (.number literal, rest)
  | _ + 1, .string text :: rest => some (.string text, rest)
  | _ + 1, .openBracket :: .closeBracket :: rest => some (.array [], rest)
  | _ + 1, .openBrace :: .closeBrace :: rest => some (.object [], rest)
  | fuel + 1, .openBracket :: rest => do
    let (elements, rest) ← readElements? fuel rest
    return (.array elements, rest)
  | fuel + 1, .openBrace :: rest => do
    let (members, rest) ← readMembers? fuel rest
    return (.object members, rest)
  | _, _ => none

/-- Elements up to the closing bracket, at least one. -/
def readElements? : Nat → List Token → Option (List Json × List Token)
  | 0, _ => none
  | fuel + 1, tokens => do
    let (element, rest) ← readValue? fuel tokens
    match rest with
    | .closeBracket :: rest => return ([element], rest)
    | .comma :: rest =>
      let (elements, rest) ← readElements? fuel rest
      return (element :: elements, rest)
    | _ => none

/-- Members up to the closing brace, at least one. -/
def readMembers? : Nat → List Token → Option (List (Option (List Char) × Json) × List Token)
  | fuel + 1, .string key :: .colon :: rest => do
    let (value, rest) ← readValue? fuel rest
    match rest with
    | .closeBrace :: rest => return ([(key, value)], rest)
    | .comma :: rest =>
      let (members, rest) ← readMembers? fuel rest
      return ((key, value) :: members, rest)
    | _ => none
  | _, _ => none

end

/-- The value of a text that holds one value and nothing else. A token is looked at by two nested
calls at most. -/
def parse? (cs : List Char) : Option Json := do
  let tokens ← tokens? cs
  match ← readValue? (2 * tokens.length + 1) tokens with
  | (value, []) => return value
  | _ => none

/-! ### Writing -/

mutual

/-- The tokens of a value. -/
def tokens : Json → List Token
  | .null => [.null]
  | .bool b => [.bool b]
  | .number literal => [.number literal]
  | .string text => [.string text]
  | .array [] => [.openBracket, .closeBracket]
  | .array (j :: elements) => .openBracket :: (j.tokens ++ furtherElements elements)
  | .object [] => [.openBrace, .closeBrace]
  | .object ((key, j) :: members) =>
    .openBrace :: .string key :: .colon :: (j.tokens ++ furtherMembers members)

/-- The elements behind the first one, up to the closing bracket. -/
def furtherElements : List Json → List Token
  | [] => [.closeBracket]
  | j :: elements => .comma :: (j.tokens ++ furtherElements elements)

/-- The members behind the first one, up to the closing brace. -/
def furtherMembers : List (Option (List Char) × Json) → List Token
  | [] => [.closeBrace]
  | (key, j) :: members => .comma :: .string key :: .colon :: (j.tokens ++ furtherMembers members)

end

/-- The value without blanks. Strings are written as they are, for none that is written needs an
escape. -/
def text (j : Json) : List Char := j.tokens.flatMap Token.text

end Json

end WildcardNet
