import WildcardNet.Listing.Entry
/-!
# Reading a listing

Lines are read in order and blank lines are skipped. The first line names the start state. States
are numbered densely: no line may name a state larger than the number of times the listing names
one, so a short listing never asks for a large network.
-/

namespace WildcardNet.Listing

inductive ReadError
  | badLine (line : Nat) (fault : LineFault)
  /-- A line is not made of characters. -/
  | notText
deriving DecidableEq, Repr

/-- An entry and the number of its line. -/
structure NumberedEntry where
  line : Nat
  entry : Entry
deriving DecidableEq

/-- The lines of a text. A line that cannot be decoded is kept as a gap. -/
def lines (bytes : ByteArray) : List (Option (List Char)) :=
  match String.fromUTF8? bytes with
  | some text => (text.toList.splitOn '\n').map some
  | none => (bytes.toList.splitOn 10).map fun line =>
    (String.fromUTF8? line.toByteArray).map String.toList

/-- The entry on a line, unless the line is blank. -/
def readLine (text : Option (List Char)) (line : Nat) : Except ReadError (Option NumberedEntry) :=
  match text with
  | none => .error .notText
  | some cs =>
    match Text.words cs with
    | [] => .ok none
    | fields =>
      match readEntry fields with
      | .error fault => .error (.badLine line fault)
      | .ok entry => .ok (some ⟨line, entry⟩)

/-- The entries of all lines, which are numbered from one, or the first fault. -/
def readEntries (lines : List (Option (List Char))) : Except ReadError (List NumberedEntry) := do
  let entries ← (lines.zipIdx 1).mapM fun (text, line) => readLine text line
  return entries.filterMap id

def references (entries : List NumberedEntry) : Nat :=
  entries.foldl (fun n e => n + e.entry.references) 0

/-- One more than the largest state named. -/
def stateCount (entries : List NumberedEntry) : Nat :=
  entries.foldl (fun n e => max n (e.entry.largestState + 1)) 0

def addEntry (states : Array State) : Entry → Array State
  | .final s w => states.modify s fun st => { st with final := w }
  | .arc a => states.modify a.source fun st => { st with arcs := st.arcs ++ [a.arc] }

/-- The network described by the entries. -/
def assemble (entries : List NumberedEntry) : Network where
  states := entries.foldl (fun states e => addEntry states e.entry)
    (Array.replicate (stateCount entries) {})
  start := entries.head?.map fun e => e.entry.source

def readLines (lines : List (Option (List Char))) : Except ReadError Network := do
  let entries ← readEntries lines
  let named := references entries
  match entries.find? fun e => named < e.entry.largestState with
  | some e => .error (.badLine e.line (.stateOutOfRange e.entry.largestState named))
  | none => .ok (assemble entries)

def read (bytes : ByteArray) : Except ReadError Network := readLines (lines bytes)

/-- The report of a listing that has been read. -/
def readEvent (f : Network) : Event := .listingRead f.size f.arcCount

end WildcardNet.Listing
