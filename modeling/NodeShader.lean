import NodeShader.Parameter.Resolve
import NodeShader.Port
import NodeShader.Template
import NodeShader.Json.Reader
import NodeShader.Json.Writer
import NodeShader.Session
import NodeShader.Wire.Request
import NodeShader.Main
import NodeShader.Proofs.Agreement
import NodeShader.Proofs.Canonical
import NodeShader.Proofs.Components
import NodeShader.Proofs.Constants
import NodeShader.Proofs.Declaration
import NodeShader.Proofs.Execution
import NodeShader.Proofs.Reordering
import NodeShader.Proofs.Respelling
import NodeShader.Proofs.Editing
import NodeShader.Proofs.Identifiers
import NodeShader.Proofs.Inclusion
import NodeShader.Proofs.Liveness
import NodeShader.Proofs.Narrowing
import NodeShader.Proofs.Numerals
import NodeShader.Proofs.Outcome
import NodeShader.Proofs.Pruning
import NodeShader.Proofs.Session
import NodeShader.Proofs.Balance
import NodeShader.Proofs.Brackets
import NodeShader.Proofs.Refusal
import NodeShader.Proofs.WireForms
import NodeShader.Proofs.WholeNumbers
import NodeShader.Proofs.Handles
import NodeShader.Proofs.Colors
import NodeShader.Proofs.Stems
import NodeShader.Proofs.Counting
