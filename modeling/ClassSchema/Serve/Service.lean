import ClassSchema.Serve.Generated
import ClassSchema.Store.Cache
/-!
# Serving a schema

A service answers requests from one generated schema, which it opens when it first needs it. A request
that fails because the schema is missing or stale has it rebuilt, if the service knows how, and is
tried once more.
-/
namespace ClassSchema

structure Service where
  root : String
  name : String
  registry : Registry
  /-- How the schema is built anew. -/
  rebuild : Option (Storing Unit)

/-- What a service works on: files and cache, the schema it has opened, and a count of rebuilds. -/
structure Serving where
  store : StoreState
  opened : Option GeneratedSchema
  rebuilds : Nat

/-- A request to an open schema. -/
abbrev Inquiry (α : Type) := GeneratedSchema → FileTree → Except Fault α × GeneratedSchema

namespace Service

variable (service : Service)

/-- The open schema, opened if it is not. -/
def load (s : Serving) : Except Fault GeneratedSchema :=
  match s.opened with
  | some g => .ok g
  | none => GeneratedSchema.openAt s.store.tree service.root service.name

/-- One attempt to answer. -/
def attempt (ask : Inquiry α) : EStateM Fault Serving α := fun s =>
  match service.load s with
  | .error e => .error e s
  | .ok g =>
    match ask g s.store.tree with
    | (.ok a, g) => .ok a { s with opened := some g }
    | (.error e, g) => .error e { s with opened := some g }

/-- Forgets the open schema. -/
def invalidate (s : Serving) : Serving := { s with opened := none }

/-- Runs the rebuild. -/
def heal (rebuild : Storing Unit) : EStateM Fault Serving Unit := fun s =>
  match rebuild s.store with
  | .ok () store => .ok () { store, opened := none, rebuilds := s.rebuilds + 1 }
  | .error e store => .error e { store, opened := none, rebuilds := s.rebuilds + 1 }

/-- Answers a request, after one rebuild if the schema turns out to be stale. -/
def request (ask : Inquiry α) : EStateM Fault Serving α := fun s =>
  match service.attempt ask s with
  | .ok a s => .ok a s
  | .error e s =>
    match service.rebuild with
    | some rebuild =>
      if e.isStale then
        match heal rebuild s with
        | .error e s => .error e s
        | .ok () s => service.attempt ask s
      else .error e s
    | none => .error e s

def schema : EStateM Fault Serving GeneratedSchema := service.request fun g _ => (.ok g, g)

def artifact (name : String) : EStateM Fault Serving Artifact :=
  service.request fun g t => g.artifact t name

def resolver (type field : String) : EStateM Fault Serving Chain :=
  service.request fun g t => g.resolver service.registry t type field

end Service
end ClassSchema
