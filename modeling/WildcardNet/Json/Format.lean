import WildcardNet.Json
import WildcardNet.Settings.Format
import WildcardNet.Text.Numeral
/-!
# JSON as a text format

The format of the settings files that the programs are given. A label is a whole number, a record
is an object or an array of its values, and null stands for what is absent.
-/

namespace WildcardNet.Json

def isNull : Json → Bool
  | .null => true
  | _ => false

def ofLabel (label : Label) : Json := .number (Text.numeral label.toNat)

/-- A label is a whole number of at most 32 bits, written with digits only. -/
def label? : Json → Option Label
  | .number literal => Text.readUInt32? literal
  | _ => none

def elements? : Json → Option (List Json)
  | .array elements => some elements
  | _ => none

def ofRecord (members : List (String × Json)) : Json :=
  .object (members.map fun m => (some m.1.toList, m.2))

/-- The values of named fields. They come as an object, in which a name does not repeat and other
names do not matter, or as an array of their values, from which the last may be missing. -/
def fields? (names : List String) : Json → Option (List (Option Json))
  | .array elements =>
    if elements.length ≤ names.length then
      some (elements.map some ++ List.replicate (names.length - elements.length) none)
    else none
  | .object members =>
    let named (name : String) := members.filter fun m => m.1 == some name.toList
    if members.all (fun m => m.1.isSome) && names.all (fun name => (named name).length ≤ 1) then
      some (names.map fun name => (named name).head?.map Prod.snd)
    else none
  | _ => none

def record? (fields : List (Field Json)) (j : Json) : Option (List Json) := do
  let given ← j.fields? (fields.map Field.name)
  (given.zip fields).mapM fun (value?, field) => value?.or field.default?

def format : Format Json where
  read? := parse?
  write := text
  null := .null
  isNull := isNull
  ofLabel := ofLabel
  label? := label?
  ofList := .array
  list? := elements?
  ofRecord := ofRecord
  record? := record?

end WildcardNet.Json
