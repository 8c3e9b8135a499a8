import ClassSchema.Dict
/-!
# File trees

A tree of folders and text files, addressed by lists of names. `put` and `remove` change one place;
the lemmas say what stands where afterwards.
-/
namespace ClassSchema

inductive FileTree where
  | file (text : String)
  | folder (entries : Dict FileTree)
deriving Repr, Inhabited

namespace FileTree

def emptyFolder : FileTree := .folder .empty

def isFile : FileTree → Bool
  | .file _ => true
  | .folder _ => false

def isFolder : FileTree → Bool
  | .file _ => false
  | .folder _ => true

def text? : FileTree → Option String
  | .file s => some s
  | .folder _ => none

/-- The entries of a folder; a file has none. -/
def entries : FileTree → Dict FileTree
  | .file _ => .empty
  | .folder es => es

/-- What stands at a place. -/
def at? : FileTree → List String → Option FileTree
  | t, [] => some t
  | .file _, _ :: _ => none
  | .folder es, name :: names => (es.get? name).bind fun t => at? t names

/-- Puts something at a place whose parent is a folder; a place without one stays as it is. -/
def put : FileTree → List String → FileTree → FileTree
  | _, [], new => new
  | .file s, _ :: _, _ => .file s
  | .folder es, [name], new => .folder (es.insert name new)
  | .folder es, name :: names, new =>
    match es.get? name with
    | some t => .folder (es.insert name (put t names new))
    | none => .folder es

/-- Takes away what stands at a place. -/
def remove : FileTree → List String → FileTree
  | t, [] => t
  | .file s, _ :: _ => .file s
  | .folder es, [name] => .folder (es.erase name)
  | .folder es, name :: names =>
    match es.get? name with
    | some t => .folder (es.insert name (remove t names))
    | none => .folder es

mutual

/-- All places below a tree, each folder before what it holds, names in order. -/
def places : FileTree → List (List String × FileTree)
  | .file _ => []
  | .folder ⟨es⟩ => placesIn es

def placesIn : List (String × FileTree) → List (List String × FileTree)
  | [] => []
  | (name, t) :: es =>
    ([name], t) :: (t.places.map fun p => (name :: p.1, p.2)) ++ placesIn es

end

/-- The files below a tree with their places. -/
def files (t : FileTree) : List (List String × String) :=
  t.places.filterMap fun p => p.2.text?.map (p.1, ·)

theorem at?_put_self (t : FileTree) (place : List String) (new : FileTree)
    (h : ∃ es, t.at? place.dropLast = some (.folder es)) :
    (t.put place new).at? place = some new := by
  fun_induction put t place new with
  | case1 => rfl
  | case2 s name names => obtain ⟨es, h⟩ := h; cases names <;> simp [at?] at h
  | case3 es name => simp [at?]
  | case4 es name names new hne t ht ih =>
    obtain ⟨es', h⟩ := h
    cases names with
    | nil => exact (hne rfl).elim
    | cons n ns =>
      simp only [List.dropLast_cons_cons, at?, ht, Option.bind_some] at h
      simpa [at?] using ih ⟨es', h⟩
  | case5 es name names new hne hn =>
    obtain ⟨es', h⟩ := h
    cases names with
    | nil => exact (hne rfl).elim
    | cons n ns => simp [at?, hn] at h

end FileTree
end ClassSchema
