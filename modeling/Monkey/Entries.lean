/-!
# Entries in order of first insertion

Bindings and hashes are lists of keys with values. Writing to a key that is there keeps its place,
and a new key goes to the end, so no key occurs twice.
-/

set_option autoImplicit false

namespace Monkey.Entries

variable {κ α : Type} [DecidableEq κ]

def get? (key : κ) : List (κ × α) → Option α
  | [] => none
  | (other, value) :: rest => if other = key then some value else get? key rest

def put (key : κ) (value : α) : List (κ × α) → List (κ × α)
  | [] => [(key, value)]
  | (other, held) :: rest =>
      if other = key then (other, value) :: rest else (other, held) :: put key value rest

def keys (entries : List (κ × α)) : List κ := entries.map Prod.fst

/-- Writing changes the value of one key. -/
theorem get?_put (key other : κ) (value : α) (entries : List (κ × α)) :
    get? other (put key value entries) =
      if other = key then some value else get? other entries := by
  induction entries with
  | nil => simp [put, get?, eq_comm]
  | cons entry rest inductionHypothesis =>
      by_cases held : entry.1 = key <;> by_cases same : other = key <;>
        by_cases first : entry.1 = other <;> simp_all [put, get?]

/-- Writing keeps the order of the keys; only a new key is added, at the end. -/
theorem keys_put (key : κ) (value : α) (entries : List (κ × α)) :
    keys (put key value entries) =
      if key ∈ keys entries then keys entries else keys entries ++ [key] := by
  induction entries with
  | nil => simp [put, keys]
  | cons entry rest inductionHypothesis =>
      by_cases same : entry.1 = key
      · simp [put, keys, same]
      · have notKey : ¬ key = entry.1 := fun isKey => same isKey.symm
        simp only [keys] at inductionHypothesis
        by_cases member : key ∈ rest.map Prod.fst <;>
          simp_all [put, keys]

end Monkey.Entries
