import ServerLink.Message

/-!
# Changes of a collection

The server pushes what happens to the items of a collection to those who subscribed to it.
-/

namespace ServerLink.Collection

open Json (Decoder Fields)

/-- What happened to an item. -/
inductive Kind where
  | added
  | changed
  | removed
deriving DecidableEq, Repr

namespace Kind

def name : Kind → String
  | .added => "added"
  | .changed => "changed"
  | .removed => "removed"

def ofName? (text : String) : Option Kind := [added, changed, removed].find? (·.name = text)

end Kind

/-- A change of an item in a collection. -/
structure Change where
  collection : String
  kind : Kind
  /-- The item, when the server names it. -/
  id : Option Json := none
  fields : Json := .null
deriving DecidableEq

/-- What subscribers are given: the fields, or for a removed item, which has none, its id. -/
def Change.payload (c : Change) : Json :=
  match c.kind with
  | .added | .changed => c.fields
  | .removed => .object [("id", c.id.getD .null), ("removed", .bool true)]

/-- The parameters of a push about a collection. -/
structure Push where
  message : String
  collection : String
  id : Option Json := none
  fields : Json := .null
deriving DecidableEq

namespace Push

def layout : Fields Push :=
  ((Fields.required "msg" Decoder.string).pair
    ((Fields.required "collection" Decoder.string).pair
      ((Fields.nullable "id" Decoder.any).pair
        (Fields.optional "fields" .null Decoder.any)))).map
    fun (message, collection, id, fields) => { message, collection, id, fields }

def decode : Decoder Push := Json.record "CollectionUpdate" layout

end Push

end ServerLink.Collection
