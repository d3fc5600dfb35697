import SatWire.Message.Conform
import SatWire.Schema.Registry
/-!
# Messages and their schema entries

A message conforms to a registry if its key has an entry, its fields follow the entry's layout, and
every message inside it, directly or in array elements, conforms in turn.
-/

namespace SatWire.Registry

mutual

/-- Checks a message and the messages inside it, and tells its entry. -/
def conform (r : Registry) : Message → Except ParseError SchemaEntry
  | ⟨serviceId, messageId, _, _, fields, _⟩ =>
    match r.lookup serviceId messageId with
    | .error fault => .error fault
    | .ok entry =>
      match located (.message entry.name) (conformFields entry.fields fields) with
      | .error fault => .error fault
      | .ok () =>
        (located (.message entry.name) (conformNested r entry.fields fields)).map fun () => entry

/-- Checks the messages inside fields that follow a layout. -/
def conformNested (r : Registry) : List FieldDef → List Field → Except ParseError Unit
  | d :: ds, ⟨_, value⟩ :: fs =>
    match located (.field d.name) (conformNestedValue r d.type value) with
    | .error fault => .error fault
    | .ok () => conformNested r ds fs
  | _, _ => .ok ()

/-- Checks the messages inside a value declared with a type. -/
def conformNestedValue (r : Registry) (type : FieldType) : Value → Except ParseError Unit
  | .message inner => (conform r inner).map fun _ => ()
  | .array elements =>
    match type with
    | .array layout => conformNestedElements r layout elements
    | _ => .ok ()
  | _ => .ok ()

/-- Checks elements against a layout, each with the messages inside it. -/
def conformNestedElements (r : Registry) (layout : List FieldDef) :
    List Element → Except ParseError Unit
  | [] => .ok ()
  | ⟨index, fields⟩ :: es =>
    match located (.element index) (conformFields layout fields) with
    | .error fault => .error fault
    | .ok () =>
      match located (.element index) (conformNested r layout fields) with
      | .error fault => .error fault
      | .ok () => conformNestedElements r layout es

end

end SatWire.Registry
