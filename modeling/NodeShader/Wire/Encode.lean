import NodeShader.Compiler
import NodeShader.Configuration
import NodeShader.Json.Basic

/-!
# JSON forms

The JSON form of what the compiler takes and gives. Optional fields that are missing are left
out unless a form says otherwise, and a number that is not finite is null.
-/

namespace NodeShader

/-- An object of the fields that are there. -/
def Json.ofFields (fields : List (String × Option Json)) : Json :=
  .record (fields.filterMap fun (name, value) => value.map fun v => (name, v))

/-- A value, or null. -/
def Json.ofOption {α : Type} (encode : α → Json) (value : Option α) : Json :=
  (value.map encode).getD .null

/-- A number as the shortest decimal that reads back. -/
def Binary.toJson {f : BinaryFormat} (x : Binary f) : Json := .ofOption .real x.toDecimal?

def Literal.toJson : Literal → Json
  | float x => x.toJson
  | int n => .int n
  | vec2 x y => .list [x.toJson, y.toJson]
  | vec3 x y z => .list [x.toJson, y.toJson, z.toJson]
  | vec4 x y z w => .list [x.toJson, y.toJson, z.toJson, w.toJson]
  | color r g b => .list [r.toJson, g.toJson, b.toJson]
  | select option => .text option

def ParameterValue.toJson : ParameterValue → Json
  | bool b => .bool b
  | int n => .int n
  | float x => x.toJson
  | vector components => .list (components.map Binary.toJson)
  | text s => .text s

def Parameter.toJson (p : Parameter) : Json :=
  .ofFields [
    ("name", some (.text p.name)),
    ("paramType", some (.text p.type.name)),
    ("default", some p.default.toJson),
    ("min", p.min.map Binary.toJson),
    ("max", p.max.map Binary.toJson),
    ("options", if p.options.isEmpty then none else some (.texts p.options))]

/-- A port that is not a uniform does not say so. -/
def Port.toJson (p : Port) : Json :=
  .ofFields [
    ("name", some (.text p.name)),
    ("direction", some (.text p.direction.stem)),
    ("dataType", some (.text p.type.name)),
    ("defaultValue", p.default.map Literal.toJson),
    ("uniform", if p.uniform then some (.bool true) else none)]

def NodeType.toJson (t : NodeType) : Json :=
  .record [
    ("id", .text t.id),
    ("label", .text t.label),
    ("category", .text t.category.name),
    ("description", .text t.description),
    ("inputs", .list (t.inputs.map Port.toJson)),
    ("outputs", .list (t.outputs.map Port.toJson)),
    ("parameters", .list (t.parameters.map Parameter.toJson)),
    ("template", .text t.template),
    ("helpers", .texts t.helpers)]

def HelperFunction.toJson (h : HelperFunction) : Json :=
  .record [("name", .text h.name), ("source", .text h.source), ("requires", .texts h.requires)]

def Node.toJson (n : Node) : Json :=
  .record [
    ("id", .text n.id),
    ("typeId", .text n.typeId),
    ("parameterValues",
      .record (n.parameters.entries.map fun (name, value) => (name, value.toJson)))]

def Edge.toJson (e : Edge) : Json :=
  .ofFields [
    ("id", some (.text e.id)),
    ("sourceNodeId", some (.text e.source)),
    ("sourcePort", e.sourcePort.map .text),
    ("targetNodeId", some (.text e.target)),
    ("targetPort", e.targetPort.map .text)]

def Graph.toJson (g : Graph) : Json :=
  .record [("nodes", .list (g.nodes.map Node.toJson)), ("edges", .list (g.edges.map Edge.toJson))]

def Diagnostic.toJson (d : Diagnostic) : Json :=
  .ofFields [
    ("severity", some (.text d.severity.name)),
    ("kind", some (.text d.kind.name)),
    ("message", some (.text d.message)),
    ("nodeId", d.node.map .text),
    ("portName", d.port.map .text)]

/-- A uniform without a value has the value null. -/
def Uniform.toJson (u : Uniform) : Json :=
  .record [
    ("name", .text u.name),
    ("type", .text u.type.name),
    ("value", .ofOption Literal.toJson u.value)]

def Statement.toJson (s : Statement) : Json :=
  .record [("node", .text s.node), ("declares", .texts s.declares), ("text", .text s.text)]

def Artifact.toJson (a : Artifact) : Json :=
  .ofFields [
    ("code", some (.text a.code)),
    ("uniforms", some (.list (a.uniforms.map Uniform.toJson))),
    ("functions", some (.texts a.functions)),
    ("error", a.error.map .text),
    ("warnings", some (.texts a.warnings))]

def Summary.toJson (s : Summary) : Json :=
  .record [
    ("is_valid", .bool s.isValid),
    ("errors", .texts s.errors),
    ("warnings", .texts s.warnings),
    ("diagnostics", .list (s.diagnostics.map Diagnostic.toJson)),
    ("suggestions", .texts s.suggestions)]

/-- A compilation without a verdict. -/
def Compilation.toJson (c : Compilation) : Json :=
  .record [("compilation", c.artifact.toJson), ("validation", c.summary.toJson)]

/-- The response to a request. -/
def Compilation.responseFields (c : Compilation) : List (String × Json) :=
  [("success", .bool c.succeeded), ("compilation", c.artifact.toJson),
    ("validation", c.summary.toJson)]

def Options.toJson (o : Options) : Json :=
  .record [
    ("language", .text o.language.name),
    ("optimize", .bool o.optimize),
    ("entryPoint", .text o.entryPoint.name)]

def Configuration.toJson (c : Configuration) : Json :=
  .record [
    ("options", c.options.toJson),
    ("session", .record [("debounce_ms", .int c.window)])]

end NodeShader
