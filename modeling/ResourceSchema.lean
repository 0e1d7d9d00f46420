import ResourceSchema.Generator.Basic
import ResourceSchema.Json.Printer
import ResourceSchema.Proofs.Disk.Change
import ResourceSchema.Proofs.Disk.Standing
import ResourceSchema.Proofs.Form.Acceptance
import ResourceSchema.Proofs.Form.RoundTrip
import ResourceSchema.Proofs.Generator.Footprint
import ResourceSchema.Proofs.Generator.History
import ResourceSchema.Proofs.Generator.References
import ResourceSchema.Proofs.Generator.Refusal
import ResourceSchema.Proofs.Package.Folder
import ResourceSchema.Proofs.Registry.Annotations
import ResourceSchema.Proofs.Registry.FirstDefinition
import ResourceSchema.Proofs.Registry.Growth
import ResourceSchema.Proofs.Registry.Order
import ResourceSchema.Proofs.Registry.Supertypes
import ResourceSchema.Proofs.SupportClass.CodeToString
import ResourceSchema.Proofs.SupportClass.Header
import ResourceSchema.Proofs.SupportClass.Imports
import ResourceSchema.Proofs.TypeExpr.Circles
import ResourceSchema.Proofs.TypeExpr.Derivations
import ResourceSchema.Proofs.TypeExpr.FirstFailure
import ResourceSchema.Proofs.TypeExpr.Unambiguous
import ResourceSchema.Schema.Annotations
import ResourceSchema.TypeExpr.Resolve
import ResourceSchema.Proofs.Double.Nearest
import ResourceSchema.Proofs.Json.Grammar
import ResourceSchema.Proofs.Json.Letters
import ResourceSchema.Proofs.Json.Numbers
import ResourceSchema.Proofs.Json.Reading
import ResourceSchema.Proofs.Form.Places
import ResourceSchema.Proofs.Form.TwoForms
import ResourceSchema.Proofs.Form.Defaults
import ResourceSchema.Proofs.Form.UnknownKeys
import ResourceSchema.Proofs.Generator.Rerun
import ResourceSchema.Proofs.Generator.Selection
import ResourceSchema.Proofs.Package.Location
