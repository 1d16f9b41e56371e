import MetadataFilter.Main
import MetadataFilter.Proofs.Document.Spelling
import MetadataFilter.Proofs.Number.Rounding
import MetadataFilter.Proofs.Number.Shortest
import MetadataFilter.Proofs.Number.Positional
import MetadataFilter.Proofs.Fragment.Scalar
import MetadataFilter.Proofs.Fragment.Template
import MetadataFilter.Proofs.SortedMap
import MetadataFilter.Proofs.Fragment.Parameters
import MetadataFilter.Proofs.Fragment.Rendering
import MetadataFilter.Proofs.Compiler.Accepted
import MetadataFilter.Proofs.Compiler.Lifting
import MetadataFilter.Proofs.Fragment.Unambiguous
import MetadataFilter.Proofs.Fragment.Escaping
import MetadataFilter.Proofs.Compiler.Injective
import MetadataFilter.Proofs.Compiler.Quoting
import MetadataFilter.Proofs.Document.Canonical
import MetadataFilter.Proofs.Compiler.FrontEnds
import MetadataFilter.Proofs.Document.Outline
import MetadataFilter.Proofs.Compiler.ValueIndependence
import MetadataFilter.Proofs.Program.Batch
import MetadataFilter.Proofs.Document.Texts
import MetadataFilter.Proofs.Compiler.Newlines
import MetadataFilter.Proofs.Program.PlainRecords
import MetadataFilter.Proofs.Json.Numeral
import MetadataFilter.Proofs.Json.Quoted
import MetadataFilter.Proofs.Json.RoundTrip
import MetadataFilter.Proofs.Compiler.JsonText
import MetadataFilter.Proofs.Program.JsonRecords
import MetadataFilter.Proofs.Fragment.ParameterNames
import MetadataFilter.Proofs.Program.Parameterized
import MetadataFilter.Proofs.Compiler.Modes
import MetadataFilter.Proofs.Document.Leaves
import MetadataFilter.Proofs.Document.TooLarge
import MetadataFilter.Proofs.Compiler.Integers
import MetadataFilter.Proofs.Document.DepthLimit
import MetadataFilter.Proofs.Document.Expression
import MetadataFilter.Proofs.Document.FirstFault
import MetadataFilter.Proofs.Document.Shorthand
import MetadataFilter.Proofs.Compiler.Shorthand
import MetadataFilter.Proofs.Fragment.Renumbering
import MetadataFilter.Proofs.Compiler.Composition
import MetadataFilter.Proofs.Filter.Preorder
import MetadataFilter.Proofs.Filter.Validation
import MetadataFilter.Proofs.Text.Lines
import MetadataFilter.Proofs.Input.Batch
import MetadataFilter.Proofs.Number.Nearest
import MetadataFilter.Proofs.Number.ShortestDigits
import MetadataFilter.Proofs.Fragment.FloatText
import MetadataFilter.Proofs.Settings.Values
import MetadataFilter.Proofs.Settings.Layers
import MetadataFilter.Proofs.Compiler.Legacy
import MetadataFilter.Proofs.Yaml.Parts
import MetadataFilter.Proofs.Program.Outcome
import MetadataFilter.Proofs.Yaml.SameShape
