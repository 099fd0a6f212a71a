import ComputeGraph.Elementwise
import ComputeGraph.Json.Printer
import ComputeGraph.Json.Reader
import ComputeGraph.Error

/-!
# Options of a builder

How a builder treats literals, shapes that do not fit and nodes without a name, and the JSON form of
these choices.

An object sets the options that it names, in any order and each at most once; a member with another
key is passed over, whatever its value. An array sets the options in their order from the first on.
What is not set keeps its default.

* `Options.toJson` — the form that is written;
* `Options.read` — the options that a text sets.
-/

namespace ComputeGraph

/-- The options of a builder. -/
structure Options where
  /-- Apply elementwise functions to literals at once. -/
  foldConstants : Bool := false
  /-- What logarithm and square root of a literal mean. -/
  domainPolicy : DomainPolicy := .engineSentinel
  /-- Refuse shapes that do not fit, instead of leaving the output shape unknown. -/
  validateShapes : Bool := true
  /-- What the names of nodes without a name begin with; nothing leaves them unnamed. -/
  namePrefix : Option String := none
deriving DecidableEq, Repr

namespace Options

open Json

/-! ### Writing -/

/-- The options in JSON, all of them in order. -/
def toJson (options : Options) : Json (List Char) :=
  .object
    [("fold_constants".toList, .bool options.foldConstants),
      ("domain_policy".toList, .string options.domainPolicy.name.toList),
      ("validate_shapes".toList, .bool options.validateShapes),
      ("name_prefix".toList, .ofOption (fun name => .string name.toList) options.namePrefix)]

/-- The text of the options. -/
def text (options : Options) : String :=
  options.toJson.compact

/-! ### Reading -/

/-- The options that have been set so far. -/
structure Fields where
  foldConstants : Option Bool := none
  domainPolicy : Option DomainPolicy := none
  validateShapes : Option Bool := none
  namePrefix : Option (Option String) := none

/-- The defaults with the options that have been set. -/
def Fields.toOptions (fields : Fields) : Options :=
  { foldConstants := fields.foldConstants.getD false
    domainPolicy := fields.domainPolicy.getD .engineSentinel
    validateShapes := fields.validateShapes.getD true
    namePrefix := fields.namePrefix.getD none }

/-- The keys of the options in order. -/
def keys : List (List Char) :=
  ["fold_constants".toList, "domain_policy".toList, "validate_shapes".toList,
    "name_prefix".toList]

/-- The text that a document is. -/
def readText? : Json Spelling → Option String
  | .string pieces => (spelledText? pieces).map String.ofList
  | _ => none

/-- The truth value that a document is. -/
def readBool? : Json Spelling → Option Bool
  | .bool value => some value
  | _ => none

/-- The policy that a document names, by a string or as the only key of an object without value. -/
def readPolicy? : Json Spelling → Option DomainPolicy
  | .object [(key, .null)] => (readText? (.string key)).bind DomainPolicy.ofName?
  | document => (readText? document).bind DomainPolicy.ofName?

/-- The text that a document is, or nothing for `null`. -/
def readOptionalText? : Json Spelling → Option (Option String)
  | .null => some none
  | document => (readText? document).map some

/-- A field that has not been set before, set. -/
def setOnce {α : Type} (field : Option α) (value : Option α) : Option (Option α) :=
  match field, value with
  | none, some value => some (some value)
  | _, _ => none

/-- The fields with the option at a key set, which must not be set yet. -/
def readField (fields : Fields) (key : List Char) (value : Json Spelling) : Option Fields :=
  if key = "fold_constants".toList then
    (setOnce fields.foldConstants (readBool? value)).map fun x => { fields with foldConstants := x }
  else if key = "domain_policy".toList then
    (setOnce fields.domainPolicy (readPolicy? value)).map fun x => { fields with domainPolicy := x }
  else if key = "validate_shapes".toList then
    (setOnce fields.validateShapes (readBool? value)).map fun x =>
      { fields with validateShapes := x }
  else if key = "name_prefix".toList then
    (setOnce fields.namePrefix (readOptionalText? value)).map fun x =>
      { fields with namePrefix := x }
  else some fields

/-- The fields with some options set one after another. -/
def readFields (fields : Fields) : List (List Char × Json Spelling) → Option Fields
  | [] => some fields
  | (key, value) :: members => do
    let fields ← readField fields key value
    readFields fields members

/-- The text of the key of a member. -/
def readKey? (member : Spelling × Json Spelling) : Option (List Char × Json Spelling) :=
  (spelledText? member.1).map fun key => (key, member.2)

/-- The options that a document sets. -/
def ofJson? : Json Spelling → Option Options
  | .object members => do
    let members ← members.mapM readKey?
    let fields ← readFields {} members
    return fields.toOptions
  | .array items =>
    if keys.length < items.length then none
    else (readFields {} (keys.zip items)).map Fields.toOptions
  | _ => none

/-- The options that a text sets. -/
def read (text : String) : Except Error Options :=
  match (read? text).bind ofJson? with
  | some options => .ok options
  | none => .error .unreadable

end Options

end ComputeGraph
