import NodeShader.Catalog.Colors
import NodeShader.Catalog.Conversions
import NodeShader.Catalog.Fields
import NodeShader.Catalog.Functions
import NodeShader.Catalog.Operations
import NodeShader.Catalog.Sources
import NodeShader.Catalog.Vectors

/-!
# The catalog

The node types that are available without any registration, in the order in which they
are listed.
-/

namespace NodeShader.Catalog

/-- All node types of the catalog. -/
def types : List NodeType :=
  sources ++ operations ++ fields ++ conversions ++ vectors ++ colors ++ [fragmentOutput]

end NodeShader.Catalog

namespace NodeShader

/-- The registry that holds the catalog. -/
def Registry.catalog : Registry := ⟨Catalog.types, Catalog.Functions.all⟩

end NodeShader
