/-!
# Diagnostics

What the compiler has to say about a graph or about shader text. The kind of a diagnostic
decides its severity and its class.
-/

namespace NodeShader

/-- An error stops a compilation, a warning does not. -/
inductive Severity where
  | error
  | warning
deriving DecidableEq, Repr

def Severity.name : Severity → String
  | error => "error"
  | warning => "warning"

/-- The broad class of a diagnostic. -/
inductive DiagnosticClass where
  | structural
  | type
  | unusedNode
  | multipleOutputs
  | internal
  | generatedSource
deriving DecidableEq, Repr

def DiagnosticClass.name : DiagnosticClass → String
  | structural => "structural"
  | type => "type"
  | unusedNode => "unusedNode"
  | multipleOutputs => "multipleOutputs"
  | internal => "internal"
  | generatedSource => "generatedSource"

/-- What a diagnostic is about. -/
inductive DiagnosticKind where
  | duplicateNodeId
  | unknownNodeType
  | unknownNode
  | unknownPort
  | unconnectedInput
  | inputAlreadyConnected
  | typeMismatch
  | invalidParameter
  | noOutputNode
  | multipleOutputNodes
  | cycle
  | unusedNodes
  | internal
  | invalidSource
  | sourceWarning
deriving DecidableEq, Repr

namespace DiagnosticKind

def all : List DiagnosticKind :=
  [duplicateNodeId, unknownNodeType, unknownNode, unknownPort, unconnectedInput,
    inputAlreadyConnected, typeMismatch, invalidParameter, noOutputNode, multipleOutputNodes, cycle,
    unusedNodes, internal, invalidSource, sourceWarning]

def name : DiagnosticKind → String
  | duplicateNodeId => "duplicateNodeId"
  | unknownNodeType => "unknownNodeType"
  | unknownNode => "unknownNode"
  | unknownPort => "unknownPort"
  | unconnectedInput => "unconnectedInput"
  | inputAlreadyConnected => "inputAlreadyConnected"
  | typeMismatch => "typeMismatch"
  | invalidParameter => "invalidParameter"
  | noOutputNode => "noOutputNode"
  | multipleOutputNodes => "multipleOutputNodes"
  | cycle => "cycle"
  | unusedNodes => "unusedNodes"
  | internal => "internal"
  | invalidSource => "invalidSource"
  | sourceWarning => "sourceWarning"

def severity : DiagnosticKind → Severity
  | multipleOutputNodes | unusedNodes | sourceWarning => .warning
  | _ => .error

def broadClass : DiagnosticKind → DiagnosticClass
  | typeMismatch | invalidParameter => .type
  | unusedNodes => .unusedNode
  | multipleOutputNodes => .multipleOutputs
  | internal => .internal
  | invalidSource | sourceWarning => .generatedSource
  | _ => .structural

end DiagnosticKind

/-- A message, and the node and the port that it is about. -/
structure Diagnostic where
  kind : DiagnosticKind
  message : String
  node : Option String := none
  port : Option String := none
deriving DecidableEq, Repr

namespace Diagnostic

def severity (d : Diagnostic) : Severity := d.kind.severity

/-- Whether the diagnostic stops a compilation. -/
def isError (d : Diagnostic) : Bool := d.severity == .error

/-- The message with the place it is about. -/
def text (d : Diagnostic) : String :=
  match d.node, d.port with
  | some node, some port => s!"node '{node}' port '{port}': {d.message}"
  | some node, none => s!"node '{node}': {d.message}"
  | none, some port => s!"port '{port}': {d.message}"
  | none, none => d.message

/-- The messages of a list of diagnostics, separated by semicolons. -/
def joined (ds : List Diagnostic) : String := "; ".intercalate (ds.map text)

end Diagnostic

end NodeShader
