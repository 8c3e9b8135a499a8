import ClassSchema.Main
import ClassSchema.Proofs.Artifact.BlockString
import ClassSchema.Proofs.Artifact.Distinct
import ClassSchema.Proofs.Artifact.Lines
import ClassSchema.Proofs.Build.Collections
import ClassSchema.Proofs.Build.Unexposed
import ClassSchema.Proofs.Class.Ancestry
import ClassSchema.Proofs.Class.Inherited
import ClassSchema.Proofs.PascalCase
import ClassSchema.Proofs.Resolver.Binding
import ClassSchema.Proofs.Resolver.Convention
import ClassSchema.Proofs.Resolver.StaticContext
import ClassSchema.Proofs.Resolver.Visit
import ClassSchema.Proofs.Schema.Kinding
import ClassSchema.Proofs.Schema.TypeSpelling
import ClassSchema.Proofs.Schema.Signed
import ClassSchema.Proofs.Selection.Conjunction
import ClassSchema.Proofs.Selection.Narrowing
import ClassSchema.Proofs.Serve.Healing
import ClassSchema.Proofs.Serve.Served
import ClassSchema.Proofs.Settings.Merge
import ClassSchema.Proofs.Store.CacheFile
import ClassSchema.Proofs.Store.Footprint
import ClassSchema.Proofs.Store.Isolation
import ClassSchema.Proofs.Value.ReadNumbers
