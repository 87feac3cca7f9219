import WildcardNet.Settings
/-!
# Settings in a file

A settings file is read and written by a library for some text format. The library has values of
its own, of a type `V`, for labels, lists, records and what is absent, and turns values into text
and text into values. Nothing else is known about it here than the laws it is relied on for. What
settings say to the library is how their records are declared: the names of the fields, in order,
and the defaults of those that may be left out.
-/

namespace WildcardNet

/-- A field of a record as it is declared. One without a default has to be given. -/
structure Field (V : Type) where
  name : String
  default? : Option V := none

/-- A library for a text format. -/
structure Format (V : Type) where
  /-- The value of a text that is one in this format. -/
  read? : List Char → Option V
  write : V → List Char
  /-- The value for what is absent. -/
  null : V
  isNull : V → Bool
  ofLabel : Label → V
  label? : V → Option Label
  ofList : List V → V
  list? : V → Option (List V)
  /-- A record with named members, in order. -/
  ofRecord : List (String × V) → V
  /-- The values of the declared fields, in the order of the declaration. -/
  record? : List (Field V) → V → Option (List V)

namespace Format

variable {V : Type}

/-- Small letters and underscores. -/
def isWord (name : String) : Bool :=
  name.toList.all fun c => ('a' ≤ c && c ≤ 'z') || c == '_'

/-- A value put together from labels, lists and records. The members of a record have distinct
words for names. -/
inductive Written (F : Format V) : V → Prop
  | null : Written F F.null
  | label (l : Label) : Written F (F.ofLabel l)
  | list {elements : List V} (all : ∀ v ∈ elements, Written F v) : Written F (F.ofList elements)
  | record {members : List (String × V)} (words : ∀ m ∈ members, isWord m.1 = true)
      (distinct : (members.map Prod.fst).Nodup) (all : ∀ m ∈ members, Written F m.2) :
      Written F (F.ofRecord members)

/-- What the library is relied on for. -/
structure Lawful (F : Format V) : Prop where
  /-- Text that was written is read back. -/
  read?_write : ∀ v, F.Written v → F.read? (F.write v) = some v
  isNull_null : F.isNull F.null = true
  isNull_ofRecord : ∀ members, F.isNull (F.ofRecord members) = false
  label?_ofLabel : ∀ l, F.label? (F.ofLabel l) = some l
  list?_ofList : ∀ elements, F.list? (F.ofList elements) = some elements
  /-- A declared field is looked up by its name. Without a member of that name it has its default,
  and without a default the record is refused. Other members do not matter. -/
  record?_ofRecord : ∀ (fields : List (Field V)) (members : List (String × V)),
    (members.map Prod.fst).Nodup → F.record? fields (F.ofRecord members) =
      fields.mapM fun field => (members.lookup field.name).or field.default?

/-- A record with a value for every declared field. -/
def ofFields (F : Format V) (fields : List (Field V)) (values : List V) : V :=
  F.ofRecord ((fields.map Field.name).zip values)

/-- A record of two labels. -/
def ofPair (F : Format V) (fields : List (Field V)) (first second : Label) : V :=
  F.ofFields fields [F.ofLabel first, F.ofLabel second]

def pair? (F : Format V) (fields : List (Field V)) (v : V) : Option (Label × Label) :=
  match F.record? fields v with
  | some [first, second] => return (← F.label? first, ← F.label? second)
  | _ => none

end Format

namespace Settings

variable {V : Type}

/-! ### Declarations -/

def wildcardsFields : List (Field V) := [{ name := "other_id" }, { name := "other_nonid" }]

def ruleFields : List (Field V) := [{ name := "separator" }, { name := "hard_epsilon" }]

/-- Wildcards must be given. A rule that is left out is absent, and an alphabet that is left out is
empty. -/
def fields (F : Format V) : List (Field V) :=
  [{ name := "wildcards" }, { name := "rule", default? := some F.null },
    { name := "alphabet", default? := some (F.ofList []) }]

/-! ### Writing -/

def ruleValue (F : Format V) : Option RuleMarks → V
  | none => F.null
  | some r => F.ofPair ruleFields r.separator r.hardEpsilon

def toValue (F : Format V) (c : Settings) : V :=
  F.ofFields (fields F) [F.ofPair wildcardsFields c.wildcards.identity c.wildcards.other,
    ruleValue F c.rule, F.ofList (c.alphabet.map F.ofLabel)]

/-- The text that the settings are written as. -/
def render (F : Format V) (c : Settings) : List Char := F.write (c.toValue F)

/-! ### Reading -/

def ruleOf? (F : Format V) (v : V) : Option (Option RuleMarks) :=
  if F.isNull v then some none
  else (F.pair? ruleFields v).map fun (separator, hardEpsilon) => some ⟨separator, hardEpsilon⟩

def ofValue? (F : Format V) (v : V) : Option Settings :=
  match F.record? (fields F) v with
  | some [wildcards, rule, alphabet] => do
    let (identity, other) ← F.pair? wildcardsFields wildcards
    let rule ← ruleOf? F rule
    let alphabet ← (← F.list? alphabet).mapM F.label?
    return ⟨⟨identity, other⟩, rule, alphabet⟩
  | _ => none

/-- The settings that a text holds. -/
def parse? (F : Format V) (text : List Char) : Option Settings := (F.read? text).bind (ofValue? F)

end Settings

end WildcardNet
