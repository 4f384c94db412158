import TaggedSchema.Json.Reader
import TaggedSchema.Validator
import TaggedSchema.Proofs.Evaluation
import TaggedSchema.Proofs.Compilation
import TaggedSchema.Proofs.Congruence
import TaggedSchema.Proofs.Analysis
import TaggedSchema.Proofs.DispatchAgreement
import TaggedSchema.Proofs.LocalReferences
import TaggedSchema.Proofs.Reentry
import TaggedSchema.Proofs.DispatchOutcome
import TaggedSchema.Proofs.Acceptance
import TaggedSchema.Proofs.Representation
import TaggedSchema.Proofs.SchemaLocations
import TaggedSchema.Proofs.InstanceLocations
import TaggedSchema.Proofs.Relocation
import TaggedSchema.Proofs.Copies
import TaggedSchema.Proofs.Transparency
import TaggedSchema.Proofs.DepthGuard
import TaggedSchema.Proofs.Coverage
import TaggedSchema.Proofs.InPlace
import TaggedSchema.Proofs.TagIdentity
import TaggedSchema.Proofs.ValueEquality
import TaggedSchema.Proofs.Combinators
import TaggedSchema.Proofs.PointerText
import TaggedSchema.Proofs.Counting
import TaggedSchema.Proofs.Calls
import TaggedSchema.Proofs.Items
import TaggedSchema.Proofs.Members
import TaggedSchema.Proofs.Consistency
import TaggedSchema.Proofs.OpenKeywords
import TaggedSchema.Proofs.Filing
import TaggedSchema.Proofs.ChainWalks
import TaggedSchema.Proofs.Addressing
import TaggedSchema.Proofs.Rounding
import TaggedSchema.Proofs.NumericBounds
import TaggedSchema.Proofs.Multiples
import TaggedSchema.Proofs.Recursion
import TaggedSchema.Proofs.Verdicts
import TaggedSchema.Proofs.Fragments
import TaggedSchema.Proofs.Loading
import TaggedSchema.Proofs.Tables
import TaggedSchema.Proofs.Aliases
import TaggedSchema.Proofs.Collecting
import TaggedSchema.Proofs.Counts
