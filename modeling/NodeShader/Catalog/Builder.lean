import NodeShader.NodeType

/-!
# Parts of catalog entries

Short forms for the ports and template segments that the entries of the catalog are made of.
-/

namespace NodeShader.Catalog

/-- An input that has to be connected. -/
def input (name : String) (type : DataType) : Port := ⟨name, .input, type, none, false⟩

/-- An input with a value for when it is not connected. -/
def inputOr (name : String) (type : DataType) (default : Literal) : Port :=
  ⟨name, .input, type, some default, false⟩

def output (name : String) (type : DataType) : Port := ⟨name, .output, type, none, false⟩

/-- A text may stand for a segment. -/
instance : Coe String Segment := ⟨.text⟩

/-- What is connected to an input. -/
def arg (name : String) : Segment := .input name

/-- The variable of an output. -/
def var (name : String) : Segment := .output name

def param (name : String) : Segment := .parameter name

def temp (name : String) : Segment := .temporary name

end NodeShader.Catalog
