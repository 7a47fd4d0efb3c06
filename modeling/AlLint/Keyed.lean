/-!
# Keyed lists

A list of named values in the order in which the names first appeared. A name that comes again keeps
its place and takes the new value.
-/

namespace AlLint

abbrev Keyed (α : Type) := List (String × α)

namespace Keyed

variable {α : Type}

def get? : Keyed α → String → Option α
  | [], _ => none
  | (k, v) :: rest, key => if key = k then some v else get? rest key

def keys (entries : Keyed α) : List String := entries.map Prod.fst

def values (entries : Keyed α) : List α := entries.map Prod.snd

def has (entries : Keyed α) (key : String) : Bool := (entries.get? key).isSome

/-- Gives a name a value, in its old place or else at the end. -/
def insert : Keyed α → String → α → Keyed α
  | [], key, value => [(key, value)]
  | (k, v) :: rest, key, value =>
    if key = k then (k, value) :: rest else (k, v) :: insert rest key value

def erase (entries : Keyed α) (key : String) : Keyed α := entries.filter fun e => e.1 ≠ key

def insertAll (entries : Keyed α) (more : List (String × α)) : Keyed α :=
  more.foldl (fun acc e => insert acc e.1 e.2) entries

def ofList (entries : List (String × α)) : Keyed α := insertAll [] entries

theorem get?_insert_self (entries : Keyed α) (key : String) (value : α) :
    (entries.insert key value).get? key = some value := by
  induction entries with
  | nil => simp [insert, get?]
  | cons e rest ih => by_cases h : key = e.1 <;> simp [insert, get?, h]; simpa [h] using ih

theorem get?_insert_of_ne (entries : Keyed α) {key other : String} (value : α) (h : other ≠ key) :
    (entries.insert key value).get? other = entries.get? other := by
  induction entries with
  | nil => simp [insert, get?, h]
  | cons e rest ih =>
    by_cases hk : key = e.1
    · simp [insert, get?, hk, hk ▸ h]
    · simp [insert, get?, hk, ih]

theorem get?_erase_self (entries : Keyed α) (key : String) : (entries.erase key).get? key = none := by
  induction entries with
  | nil => rfl
  | cons e rest ih =>
    by_cases h : e.1 = key
    · simpa [erase, h] using ih
    · simpa [erase, get?, h, Ne.symm h] using ih

theorem get?_erase_of_ne (entries : Keyed α) {key other : String} (h : other ≠ key) :
    (entries.erase key).get? other = entries.get? other := by
  induction entries with
  | nil => rfl
  | cons e rest ih =>
    by_cases hk : e.1 = key
    · simpa [erase, get?, hk, h] using ih
    · by_cases ho : other = e.1
      · simp [erase, get?, ho ▸ h, ho]
      · simpa [erase, get?, hk, ho] using ih

theorem get?_eq_none_of_not_mem_keys {entries : Keyed α} {key : String} (h : key ∉ entries.keys) :
    entries.get? key = none := by
  induction entries with
  | nil => rfl
  | cons e rest ih =>
    simp only [keys, List.map_cons, List.mem_cons, not_or] at h
    rw [get?, if_neg h.1]
    exact ih h.2

theorem get?_filterMap (names : List String) (f : String → Option α) (key : String) :
    get? (names.filterMap fun name => (f name).map (name, ·)) key = if key ∈ names then f key else none := by
  induction names with
  | nil => rfl
  | cons name rest ih =>
    by_cases h : key = name
    · subst h
      cases hf : f key with
      | none => simp [hf, ih]
      | some v => simp [hf, get?]
    · cases hf : f name with
      | none => simp [hf, ih, h]
      | some v => simp [hf, get?, ih, h]

end Keyed

end AlLint
