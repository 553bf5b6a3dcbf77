namespace ActivityCatalog

/-!
# Dictionaries listed by key

A dictionary is the list of its entries in strictly increasing key order, the
order of the UTF-8 bytes of the keys.  Listing one is therefore reading it off,
and two dictionaries with the same entries are the same list.

`Dictionary.Sorted` states the order, `Dictionary.insert` keeps it, and
`Dictionary.ofList` builds a dictionary in which the last of several entries
with one key wins.
-/

/-- Entries in strictly increasing key order. -/
abbrev Dictionary (Value : Type) :=
  List (String × Value)

namespace Dictionary

variable {Value : Type}

/-- Every key is smaller than all later ones. -/
def Sorted (entries : Dictionary Value) : Prop :=
  entries.Pairwise fun earlier later => earlier.1 < later.1

/-- The value stored under a key. -/
def get? (key : String) : Dictionary Value → Option Value
  | [] =>
      none
  | (name, value) :: rest =>
      if name = key then some value else get? key rest

/-- Store a value under a key, replacing the one that was there. -/
def insert (key : String) (value : Value) : Dictionary Value → Dictionary Value
  | [] =>
      [(key, value)]
  | (name, held) :: rest =>
      match compare key name with
      | .lt => (key, value) :: (name, held) :: rest
      | .eq => (key, value) :: rest
      | .gt => (name, held) :: insert key value rest

/-- Store entries one after another; the last entry of a key wins. -/
def insertAll (entries : List (String × Value)) (start : Dictionary Value) :
    Dictionary Value :=
  entries.foldl (fun held entry => insert entry.1 entry.2 held) start

/-- The dictionary of a list of entries; the last entry of a key wins. -/
def ofList (entries : List (String × Value)) : Dictionary Value :=
  insertAll entries []

/-- The keys in increasing order. -/
def keys (entries : Dictionary Value) : List String :=
  entries.map Prod.fst

/-- The value found under the key that was just stored. -/
theorem get?_insert_self (key : String) (value : Value) (entries : Dictionary Value) :
    get? key (insert key value entries) = some value := by
  induction entries with
  | nil =>
      simp [insert, get?]
  | cons entry rest inductionHypothesis =>
      obtain ⟨name, held⟩ := entry
      unfold insert
      split
      · simp [get?]
      · simp [get?]
      · rename_i order
        have different : name ≠ key := by
          rintro rfl
          simp at order
        simp [get?, different, inductionHypothesis]

/-- Storing under one key leaves what is found under every other. -/
theorem get?_insert_of_ne {key other : String} (different : other ≠ key)
    (value : Value) (entries : Dictionary Value) :
    get? other (insert key value entries) = get? other entries := by
  induction entries with
  | nil =>
      simp [insert, get?, different.symm]
  | cons entry rest inductionHypothesis =>
      obtain ⟨name, held⟩ := entry
      unfold insert
      split
      · simp [get?, different.symm]
      · rename_i order
        have same : key = name := by simpa using order
        subst same
        simp [get?, different.symm]
      · simp [get?, inductionHypothesis]

end Dictionary

end ActivityCatalog
