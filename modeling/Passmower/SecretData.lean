import Passmower.Encoding.Base64
import Passmower.Encoding.JsonWriting

/-! The data of a Secret: how the adapter writes it and reads it back, and how the client operator tells a change. -/
namespace Passmower
open Encoding

namespace SecretData

inductive SecretValue where
  | undefined
  | text (text : Utf16)
  | list (items : List Utf16)

def SecretValue.value? : SecretValue → Option JsonValue
  | .undefined => none
  | .text value => some (.string value)
  | .list items => some (.array (items.map .string))

def SecretValue.field? : SecretValue → Option Utf16
  | .undefined => none
  | .text value => some (if value = [] then [] else base64 (utf8 value))
  | .list items => some (base64 (utf8 (stringify (.array (items.map .string)))))

def generateSecretData (model : List (Utf16 × SecretValue)) : List (Utf16 × Option Utf16) :=
  model.map fun field => (field.1,field.2.field?)

def readValue? (bytes : Bytes) : JsonValue := (parse (utf8Text bytes)).getD (.string (utf8Text bytes))

def parseSecretData (secret : List (Utf16 × Utf16)) : List (Utf16 × JsonValue) :=
  secret.map fun field => (field.1,readValue? (fromBase64 field.2))

def asString : Option JsonValue → Utf16
  | none | some .null => []
  | some (.string text) => text
  | some value => stringify value

def secretDataChanged (existing : List (Utf16 × JsonValue)) (desired : List (Utf16 × SecretValue)) : Bool :=
  (existing.map Prod.fst ++ desired.map Prod.fst).eraseDups.any fun key =>
    asString (existing.lookup key) ≠ asString ((desired.lookup key).bind SecretValue.value?)

abbrev Stored := List (Utf16 × Bytes)

def kept (data : List (Utf16 × Option Utf16)) : Stored :=
  data.filterMap fun field => field.2.map fun value => (field.1,fromBase64 value)

def served (stored : Stored) : List (Utf16 × Utf16) := stored.map fun field => (field.1,base64 field.2)

def readBack (stored : Stored) : List (Utf16 × JsonValue) := parseSecretData (served stored)

def desired (texts : List (Utf16 × Utf16)) : List (Utf16 × SecretValue) := texts.map fun field => (field.1,.text field.2)

def written (texts : List (Utf16 × Utf16)) : Stored := kept (generateSecretData (desired texts))

/- The text under a key; as for `asString`, one that is not there is empty. -/
def textAt (texts : List (Utf16 × Utf16)) (key : Utf16) : Utf16 := (texts.lookup key).getD []

def bytesAt (stored : Stored) (key : Utf16) : Bytes := (stored.lookup key).getD []

def Settled (text : Utf16) : Prop := toWellFormed text = text ∧ ∀ value, parse text = some value →
  stringify value = text ∧ value ≠ .null ∧ ∀ inner, value ≠ .string inner

section Reading
variable {bytes : Bytes} {text key : Utf16} {texts : List (Utf16 × Utf16)} {stored : Stored}

theorem lookupMap {α β : Type} (f : α → β) (fields : List (Utf16 × α)) :
    (fields.map fun field => (field.1,f field.2)).lookup key = (fields.lookup key).map f := by
  induction fields with
  | nil => rfl
  | cons field fields ih =>
      rw [List.map_cons,List.lookup_cons,List.lookup_cons,ih]
      cases key == field.1 <;> rfl

theorem readBackFields : readBack stored = stored.map fun field => (field.1,readValue? field.2) := by
  simp only [readBack,parseSecretData,served,List.map_map]
  refine List.map_congr_left fun field _ => ?_
  simp only [Function.comp_apply,base64Read]

end Reading

end SecretData
end Passmower
