import Courier.Json.Basic
/-!
Whether two documents are the same can be decided, so what is read from given octets can be computed
and compared.
-/
namespace Courier

deriving instance DecidableEq for Json.Number

namespace Json

mutual

/-- Are two documents the same? -/
def same : Json → Json → Bool
  | .null, .null => true
  | .bool b, .bool b' => b == b'
  | .number n, .number n' => decide (n = n')
  | .string s, .string s' => s == s'
  | .array items, .array items' => sameItems items items'
  | .object fields, .object fields' => sameFields fields fields'
  | _, _ => false

def sameItems : List Json → List Json → Bool
  | [], [] => true
  | item :: rest, item' :: rest' => same item item' && sameItems rest rest'
  | _, _ => false

def sameFields : List (String × Json) → List (String × Json) → Bool
  | [], [] => true
  | (name, value) :: rest, (name', value') :: rest' =>
      name == name' && same value value' && sameFields rest rest'
  | _, _ => false

end

mutual

theorem same_iff (document document' : Json) :
    same document document' = true ↔ document = document' := by
  cases document with
  | array items => cases document' <;> simp [same, sameItems_iff]
  | object fields => cases document' <;> simp [same, sameFields_iff]
  | _ => cases document' <;> simp [same]

theorem sameItems_iff (items items' : List Json) : sameItems items items' = true ↔ items = items' := by
  cases items with
  | nil => cases items' <;> simp [sameItems]
  | cons item rest => cases items' <;> simp [sameItems, same_iff, sameItems_iff]

theorem sameFields_iff (fields fields' : List (String × Json)) :
    sameFields fields fields' = true ↔ fields = fields' := by
  cases fields with
  | nil => cases fields' <;> simp [sameFields]
  | cons field rest =>
      obtain ⟨name, value⟩ := field
      cases fields' <;> simp [sameFields, same_iff, sameFields_iff, Prod.ext_iff, and_assoc]

end

instance : DecidableEq Json := fun document document' =>
  decidable_of_iff _ (same_iff document document')

end Json
end Courier
