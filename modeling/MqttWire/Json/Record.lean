import MqttWire.Json.Value

/-! # JSON records

A record names its members, which then come in any order, or lists all of them
in the order of declaration. Bad members, also those that come again, are
reported before missing ones: of several bad members the one that is visited
first, of several missing ones the one that is declared first.
-/

namespace MqttWire.Json

/-- What reading members of a record has shown. -/
inductive Reading (α : Type) where
  | value (value : α)
  /-- Something is wrong with a member, after `visited` others were visited. -/
  | fault (visited : Nat) (error : JsonError)

namespace Reading

/-- Of two faults the one that is found first counts. -/
instance : Applicative Reading where
  pure := .value
  seq first second :=
    match first, second () with
    | .value build, .value part => .value (build part)
    | .value _, .fault visited error => .fault visited error
    | .fault visited error, .value _ => .fault visited error
    | .fault visited error, .fault visited' error' =>
        if visited' < visited then .fault visited' error' else .fault visited error

end Reading

/-- Reader of a record. -/
structure RecordReader (α : Type) where
  /-- Names of the members, in the order of declaration. -/
  names : List String
  /-- Read the members, given in the order in which they are visited. -/
  read : List (String × Json) → Reading α

namespace RecordReader

/-- Members of both readers, those of the first declared before those of the
    second. -/
instance : Applicative RecordReader where
  pure value := ⟨[], fun _ => .value value⟩
  seq first second :=
    ⟨first.names ++ (second ()).names, fun members => first.read members <*> (second ()).read members⟩

/-- Members of a name, each with the number of members in front of it. -/
def occurrences (name : String) (members : List (String × Json)) : List (Json × Nat) :=
  (members.zipIdx.filter (·.1.1 == name)).map fun member => (member.1.2, member.2)

/-- Reader of one member, which may stay away if there is something to put in
    its place, but may not come twice. -/
def memberOr (absent : Option α) (name : String) (read : Json → Outcome α) : RecordReader α where
  names := [name]
  read members :=
    match occurrences name members, absent with
    | [], some value => .value value
    | [], none => .fault members.length (.missingField name)
    | (json, visited) :: others, _ =>
        match read json, others with
        | .error error, _ => .fault visited error
        | .ok value, [] => .value value
        | .ok _, (_, again) :: _ => .fault again (.duplicateField name)

/-- Reader of a member that has to be there. -/
def member (name : String) (read : Json → Outcome α) : RecordReader α :=
  memberOr none name read

/-- Reader of a member that may be null or left out. -/
def member? (name : String) (read : Json → Outcome α) : RecordReader (Option α) :=
  memberOr (some none) name (toNullable read)

/-- Read members by their names. -/
def readNamed (reader : RecordReader α) (members : List (String × Json)) : Outcome α :=
  match reader.read members with
  | .value value => .ok value
  | .fault _ error => .error error

/-- Read members by their order: none may be left out, and none added. -/
def readListed (reader : RecordReader α) (items : List Json) : Outcome α :=
  let wrongLength := .error (.unexpected s!"a sequence of {reader.names.length} members")
  match reader.read (reader.names.zip items) with
  | .value value => if items.length = reader.names.length then .ok value else wrongLength
  | .fault visited error => if visited < items.length then .error error else wrongLength

end RecordReader

/-- Record, with its members named or listed. -/
def toRecord (reader : RecordReader α) : Json → Outcome α
  | .object members => reader.readNamed members
  | .array items => reader.readListed items
  | _ => .error (.unexpected "a record")

end MqttWire.Json
