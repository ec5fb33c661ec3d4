import KeyStore.Json.Shape

/-!
# Records

Types whose values are kept in a key store as JSON texts of one shape.
-/

namespace KeyStore

open Json

/-- A type whose values correspond to the values of a shape. -/
class Recorded (α : Type) where
  shape : Shape
  toDatum : α → shape.Datum
  ofDatum : shape.Datum → α
  ofDatum_toDatum (value : α) : ofDatum (toDatum value) = value
  toDatum_ofDatum (datum : shape.Datum) : toDatum (ofDatum datum) = datum

namespace Recorded

variable {α : Type} [Recorded α]

def serialize (value : α) : String :=
  String.ofList ((shape α).write (toDatum value))

def parse (α : Type) [Recorded α] (text : String) : Except LocatedFault α :=
  match (shape α).parse text with
  | .ok datum => .ok (ofDatum datum)
  | .error fault => .error fault

end Recorded

def Json.Shape.word32 : Shape := .count "u32" UInt32.size

def Json.Shape.word64 : Shape := .count "usize" UInt64.size

end KeyStore
