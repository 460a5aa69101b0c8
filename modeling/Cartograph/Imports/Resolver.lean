import Cartograph.Graph.Basic
import Cartograph.Language

/-!
# Resolving imports

An import edge first points at a placeholder. A resolver knows the files of one family of languages
and redirects their import edges to the files that are meant, as far as it can tell. It changes
nothing but targets.
-/

namespace Cartograph

/-- What redirects the imports of one family of languages. -/
structure Resolver where
  language : Language
  /-- The identifiers of the files of the family. -/
  owned : Std.HashSet String
  /-- The file that a file means by what it imports. -/
  resolve : (source target : String) → Option String

namespace Resolver

/-- The file with this identifier is of the family. -/
def owns (r : Resolver) (id : String) : Bool :=
  r.owned.contains id

/-- Where the edge is to lead, if the resolver can tell. -/
def target? (r : Resolver) (edge : Edge) : Option String :=
  match edge.unresolved? with
  | some target => if r.owns edge.source then r.resolve edge.source target else none
  | none => none

/-- The edge, redirected if the resolver can tell where. -/
def redirect (r : Resolver) (edge : Edge) : Edge :=
  match r.target? edge with
  | some target => { edge with target }
  | none => edge

end Resolver

/-- The graph with its imports redirected. -/
def Graph.resolveImports (g : Graph) (r : Resolver) : Graph :=
  { g with edges := g.edges.map r.redirect }

/-- How many imports the resolver redirects. -/
def Graph.resolvableCount (g : Graph) (r : Resolver) : Nat :=
  g.edges.countP fun edge => (r.target? edge).isSome

end Cartograph
