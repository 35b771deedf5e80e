import Courier.Stub
/-!
Looking up keys in lists of pairs, where the first pair of a key counts.
-/
namespace Courier

variable {κ α β : Type} [BEq κ] [LawfulBEq κ] [DecidableEq κ]

theorem lookup_cons_eq (head : κ × α) (rest : List (κ × α)) (key : κ) :
    (head :: rest).lookup key = if key = head.1 then some head.2 else rest.lookup key := by
  obtain ⟨k, v⟩ := head
  by_cases hkey : key = k
  · rw [hkey, List.lookup_cons_self, if_pos rfl]
  · rw [List.lookup_cons, beq_eq_false_iff_ne.mpr hkey, if_neg hkey]

theorem lookup_assign (key k : κ) (value : α) (entries : List (κ × α)) :
    (assign key value entries).lookup k = if k = key then some value else entries.lookup k := by
  induction entries with
  | nil => rw [assign, lookup_cons_eq]
  | cons entry rest ih =>
      by_cases hkey : entry.1 = key
      · rw [assign, if_pos hkey, lookup_cons_eq, lookup_cons_eq, hkey]
        by_cases hk : k = key
        · rw [if_pos hk, if_pos hk]
        · rw [if_neg hk, if_neg hk, if_neg hk]
      · rw [assign, if_neg hkey, lookup_cons_eq, lookup_cons_eq, ih]
        by_cases hk : k = entry.1
        · rw [if_pos hk, if_pos hk, if_neg (hk ▸ hkey)]
        · rw [if_neg hk, if_neg hk]

theorem lookup_map_snd (f : α → β) (k : κ) (entries : List (κ × α)) :
    (entries.map fun entry => (entry.1, f entry.2)).lookup k = (entries.lookup k).map f := by
  induction entries with
  | nil => rfl
  | cons entry rest ih =>
      rw [List.map_cons, lookup_cons_eq, lookup_cons_eq, ih]
      by_cases hk : k = entry.1
      · rw [if_pos hk, if_pos hk, Option.map_some]
      · rw [if_neg hk, if_neg hk]

end Courier
