import SchemaGraph.Registry.Basic
/-!
# Binding type references

A reference is the name of a type as written in a scope. `Symbols.resolve` binds it to a declared
message or enum, or to a placeholder. A binding to a declared entity is kept and never reconsidered.
-/

namespace SchemaGraph

/-- The registry with the bindings made so far. -/
structure Symbols where
  registry : Registry
  /-- The qualified name that each pair of a scope and a reference is bound to. -/
  bindings : List ((String × String) × String)

/-- What a reference stands for. -/
inductive Referent where
  | scalar
  /-- A declared entity or a placeholder, by its qualified name. -/
  | entity (qualifiedName : String)
  deriving DecidableEq, Repr

/-- The names of greatest weight among the given ones, in ascending order. -/
def heaviest (names : List (String × Nat)) : List String :=
  let best := (names.map (·.2)).foldl max 0
  sortDistinct ((names.filter (·.2 = best)).map (·.1))

namespace Registry

/-- The declared message or enum of a qualified name. -/
def type? (r : Registry) (qualifiedName : String) : Option Entity :=
  (r.get? qualifiedName).filter (·.kind.isType)

/-- The declared messages and enums of a short name, in declaration order. -/
def typeCandidates (r : Registry) (shortName : String) : List Entity :=
  (r.candidates shortName).filterMap r.type?

/--
The declared messages and enums that a reference without leading dot may mean inside a scope, with
their weights. A dotted reference means those whose qualified names end with it and whose remaining
names enclose the scope; a bare one those whose namespaces enclose the scope.
-/
def enclosing (candidates : List Entity) (scope reference : String) : List (String × Nat) :=
  if reference.toList.contains '.' then
    (candidates.filter fun e =>
      Name.hasComponentSuffix e.qualifiedName reference &&
        Name.isScopePrefix (Name.namespaceOf e.qualifiedName reference) scope).map
      fun e => (e.qualifiedName, e.qualifiedName.utf8ByteSize)
  else
    (candidates.filter fun e => Name.isScopePrefix e.namespace scope).map
      fun e => (e.qualifiedName, e.namespace.utf8ByteSize)

/--
The declared message or enum that a reference means inside a scope.

1. A reference with a leading dot means the entity of that qualified name, if there is one.
2. The only candidate with the last component as its short name is taken.
3. Of several candidates the heaviest enclosing one is taken, and two of one weight are ambiguous.
-/
def bind (r : Registry) (scope reference : String) : Except BindingError (Option String) :=
  let name := (Name.absolute? reference).getD reference
  match (Name.absolute? reference).bind r.type? with
  | some entity => .ok (some entity.qualifiedName)
  | none =>
    match r.typeCandidates (Name.lastComponent name) with
    | [] => .ok none
    | [only] => .ok (some only.qualifiedName)
    | several =>
      match heaviest (enclosing several scope name) with
      | [] => .ok none
      | [best] => .ok (some best)
      | ties => .error (.ambiguous scope name ties)

end Registry

namespace Symbols

/-- A registry without bindings. -/
def ofRegistry (registry : Registry) : Symbols :=
  ⟨registry, []⟩

/-- The binding kept for a reference in a scope. -/
def lookup (s : Symbols) (scope reference : String) : Option String :=
  s.bindings.lookup (scope, reference)

/-- The placeholder for a reference that nothing answers: it belongs to the entity that the scope
names, or to the scope itself when it names none. -/
def placeholder (s : Symbols) (scope reference : String) : Referent × Symbols :=
  let (ownerId, source) :=
    match s.registry.get? scope with
    | some owner => (owner.nodeId, owner.source)
    | none => (scope, "")
  let (entity, registry) := s.registry.placeholder ownerId reference source
  (.entity entity.qualifiedName, { s with registry })

/-- Binds a reference in a scope. What nothing answers becomes a placeholder if `showMissing`, and
is refused otherwise. -/
def resolve (s : Symbols) (showMissing : Bool) (scope reference : String) :
    Except BindingError Referent × Symbols :=
  if Name.isScalar reference then (.ok .scalar, s)
  else
    match s.lookup scope reference with
    | some bound => (.ok (.entity bound), s)
    | none =>
      match s.registry.bind scope reference with
      | .error e => (.error e, s)
      | .ok (some name) =>
        (.ok (.entity name), { s with bindings := ((scope, reference), name) :: s.bindings })
      | .ok none =>
        if showMissing then
          let (referent, s) := s.placeholder scope reference
          (.ok referent, s)
        else (.error (.unresolved scope reference), s)

end Symbols
end SchemaGraph
