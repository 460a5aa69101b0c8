import Cartograph.Graph.Kind
import Cartograph.Text.Case
import Cartograph.Text.Split

/-!
# What names give away

Classes and functions often say in their names what they are for. A table of parts of names decides:
the first entry with a part that occurs in the name, whatever its letter case.
-/

namespace Cartograph.Naming

/-- Parts of names with the kind that each entry stands for. -/
abbrev Table := List (List String × NodeKind)

/-- The kind of the first entry with a part in the name. -/
def kindOf? (table : Table) (name : String) : Option NodeKind :=
  let name := Text.lower name
  (table.find? fun entry => entry.1.any (Text.holds name)).map (·.2)

/-- Classes of Python files. -/
def pythonClasses : Table :=
  [(["service"], .service), (["middleware"], .middleware), (["util", "helper"], .utility)]

/-- Classes of script files. -/
def scriptClasses : Table :=
  [(["component", "view"], .component), (["service"], .service), (["middleware"], .middleware),
    (["controller", "router"], .router), (["model"], .model)]

/-- Functions of script files. -/
def scriptFunctions : Table :=
  [(["middleware"], .middleware), (["handler", "controller"], .endpoint)]

end Cartograph.Naming
