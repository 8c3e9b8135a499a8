/-!
# Name-keyed tables

A `Dict` lists named values in the order of their names. `insert` keeps that order and leaves one
entry per name; the small lemmas say what each operation does to `get?`.
-/
namespace ClassSchema

/-- Named values, listed in name order. -/
structure Dict (α : Type u) where
  entries : List (String × α)
deriving Repr, Inhabited, DecidableEq

namespace Dict

variable {α : Type u} {β : Type v}

/-- The value of the first entry named `key`. -/
def lookup (key : String) : List (String × α) → Option α
  | [] => none
  | (name, value) :: rest => if name = key then some value else lookup key rest

/-- Puts a pair in its place, over an entry of the same name. -/
def place (key : String) (value : α) : List (String × α) → List (String × α)
  | [] => [(key, value)]
  | (name, old) :: rest =>
    if name = key then (key, value) :: rest
    else if key < name then (key, value) :: (name, old) :: rest
    else (name, old) :: place key value rest

def empty : Dict α := ⟨[]⟩

def get? (d : Dict α) (key : String) : Option α := lookup key d.entries

def contains (d : Dict α) (key : String) : Bool := (d.get? key).isSome

def insert (d : Dict α) (key : String) (value : α) : Dict α := ⟨place key value d.entries⟩

def erase (d : Dict α) (key : String) : Dict α := ⟨d.entries.filter fun e => e.1 ≠ key⟩

def keys (d : Dict α) : List String := d.entries.map (·.1)

def values (d : Dict α) : List α := d.entries.map (·.2)

def size (d : Dict α) : Nat := d.entries.length

def isEmpty (d : Dict α) : Bool := d.entries.isEmpty

/-- Later pairs win over earlier ones of the same name. -/
def insertAll (d : Dict α) (pairs : List (String × α)) : Dict α :=
  pairs.foldl (fun d e => d.insert e.1 e.2) d

def ofList (pairs : List (String × α)) : Dict α := empty.insertAll pairs

/-- The entries of `d` overlaid by those of `e`. -/
def overlay (d e : Dict α) : Dict α := d.insertAll e.entries

def filter (d : Dict α) (keep : String → α → Bool) : Dict α :=
  ⟨d.entries.filter fun e => keep e.1 e.2⟩

def map (d : Dict α) (f : α → β) : Dict β := ⟨d.entries.map fun e => (e.1, f e.2)⟩

theorem lookup_place (key name : String) (value : α) (l : List (String × α)) :
    lookup name (place key value l) = if name = key then some value else lookup name l := by
  induction l with
  | nil => simp only [place, lookup, eq_comm]
  | cons e rest ih =>
    obtain ⟨k, old⟩ := e
    simp only [place]
    split
    · next h => subst h; simp only [lookup]; grind
    · split
      · simp only [lookup]; grind
      · simp only [lookup, ih]; grind

@[simp] theorem get?_empty (key : String) : (empty : Dict α).get? key = none := rfl

@[simp] theorem get?_insert (d : Dict α) (key name : String) (value : α) :
    (d.insert key value).get? name = if name = key then some value else d.get? name :=
  lookup_place key name value d.entries

theorem lookup_filter_ne (key name : String) (l : List (String × α)) :
    lookup name (l.filter fun e => e.1 ≠ key) = if name = key then none else lookup name l := by
  induction l with
  | nil => simp [lookup]
  | cons e rest ih =>
    obtain ⟨k, v⟩ := e
    by_cases hk : k = key
    · rw [List.filter_cons_of_neg (by simp [hk]), ih, lookup]
      grind
    · rw [List.filter_cons_of_pos (by simp [hk]), lookup, lookup, ih]
      grind

@[simp] theorem get?_erase (d : Dict α) (key name : String) :
    (d.erase key).get? name = if name = key then none else d.get? name :=
  lookup_filter_ne key name d.entries

end Dict
end ClassSchema
