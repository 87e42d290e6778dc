import Reassembly.Delivery.Sink
import Reassembly.Request.Head
import Reassembly.Request.Target

/-!
# Assembled requests

What a stream has delivered up to its end is the text of one request. Assembling it reads
the head, reads the target of the request line, and takes all that follows the head for
the body.
-/

namespace Reassembly

structure Request where
  method : Bytes
  target : Target
  version : Version
  /-- The header fields in order of arrival, their names in lower case. -/
  fields : List Field
  body : Bytes
  deriving DecidableEq, Repr

/-- Why no request was assembled. -/
inductive AssemblyError where
  /-- What was delivered ends before the head does. -/
  | incomplete (stream : StreamId)
  | tooManyFields
  | malformedHead (fault : Head.Fault)
  | malformedTarget (fault : Target.Fault)
  | fieldNameTooLong
  deriving DecidableEq, Repr

def AssemblyError.message : AssemblyError → String
  | incomplete stream => s!"stream {stream} ended before a complete request was delivered"
  | tooManyFields => s!"header number exceed the limit {Head.maxFields}"
  | malformedHead fault => s!"invalid request head: {fault.message}"
  | malformedTarget fault => s!"invalid request: {fault.message}"
  | fieldNameTooLong => "invalid request: invalid HTTP header name"

def AssemblyError.ofReadError (stream : StreamId) : Head.ReadError → AssemblyError
  | .incomplete => incomplete stream
  | .tooManyFields => tooManyFields
  | .malformed fault => malformedHead fault

/-- The values of all header fields that share a name. -/
structure FieldGroup where
  name : Bytes
  /-- The values in order of arrival. -/
  values : List Bytes
  deriving DecidableEq, Repr

/-- Adds a field to groups that are sorted by name. -/
def FieldGroup.insert (field : Field) : List FieldGroup → List FieldGroup
  | [] => [⟨field.name, [field.value]⟩]
  | group :: later =>
      if field.name = group.name then
        { group with values := group.values ++ [field.value] } :: later
      else if field.name < group.name then ⟨field.name, [field.value]⟩ :: group :: later
      else group :: insert field later

namespace Request

def maxNameLength : Nat := 65535

def ofHead (head : Head) (body : Bytes) : Except AssemblyError Request := do
  let target ← (Target.parse head.target).mapError .malformedTarget
  if head.fields.all fun field => field.name.length ≤ maxNameLength then
    pure {
      method := head.method
      target
      version := head.version
      fields := head.fields.map fun field => { field with name := Bytes.toLower field.name }
      body }
  else
    throw .fieldNameTooLong

/-- The request whose text a stream has delivered. -/
def assemble (stream : StreamId) (octets : Bytes) : Except AssemblyError Request := do
  let (head, body) ← (Head.read octets).mapError (.ofReadError stream)
  ofHead head body

/-- The header fields grouped by name, the names in lexicographic order of their octets. -/
def fieldGroups (request : Request) : List FieldGroup :=
  request.fields.foldl (fun groups field => FieldGroup.insert field groups) []

end Request

end Reassembly
