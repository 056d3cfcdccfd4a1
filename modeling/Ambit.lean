import Ambit.Access
import Ambit.Archive
import Ambit.Archive.Fact
import Ambit.Binary64
import Ambit.Completion
import Ambit.Conformance
import Ambit.Cursor
import Ambit.Declaration
import Ambit.Disposal
import Ambit.Extension
import Ambit.Fault
import Ambit.FreshName
import Ambit.Id
import Ambit.Identifier
import Ambit.Json
import Ambit.Json.Decoder
import Ambit.Json.Lexeme
import Ambit.Json.Parser
import Ambit.Json.Printer
import Ambit.Lineage
import Ambit.Lookup
import Ambit.Member
import Ambit.NameSupply
import Ambit.Offer
import Ambit.Options
import Ambit.Proofs.Answer
import Ambit.Proofs.Lookup.Shadowing
import Ambit.Proofs.Lookup.Walk
import Ambit.Receiver
import Ambit.Rivals
import Ambit.Scope
import Ambit.Sketch
import Ambit.Sketch.Header
import Ambit.Sketch.Prelude
import Ambit.Sketch.Region
import Ambit.Snapshot
import Ambit.Spelled
import Ambit.Store
import Ambit.Store.Chain
import Ambit.Store.Check
import Ambit.Symbol
import Ambit.Text.Blank
import Ambit.Text.Bytes
import Ambit.Text.Casing
import Ambit.Text.Letter
import Ambit.Text.Numeral
import Ambit.Text.Occurrence
import Ambit.Text.Place
import Ambit.Text.Quoted
import Ambit.Text.Span
import Ambit.Token
import Ambit.TypeRef
import Ambit.TypeRef.Fit
import Ambit.Verdict
import Ambit.Proofs.Lookup.Footing
import Ambit.Proofs.Lineage.Bound
import Ambit.Proofs.Lineage.Reachability
import Ambit.Proofs.Agreement
import Ambit.Proofs.NameSupply
import Ambit.Proofs.Store.Built
import Ambit.Proofs.Store.Outward
import Ambit.Proofs.Access
import Ambit.Proofs.Lookup.NewLocal
import Ambit.Proofs.Lookup.Shading
import Ambit.Proofs.Lookup.Insertion
import Ambit.Proofs.FreshName.Capture
import Ambit.Proofs.Table
import Ambit.Proofs.Store.Identity
import Ambit.Proofs.Store.TypeParams
import Ambit.Proofs.Store.Facts
import Ambit.Proofs.Alike
import Ambit.Proofs.Archive.Restore
import Ambit.Proofs.Archive.Reload
import Ambit.Proofs.Json.Lexeme
import Ambit.Proofs.Json.RoundTrip
import Ambit.Proofs.Archive.Fact
import Ambit.Proofs.Archive.ReadWrite
import Ambit.Proofs.Lineage.Instantiation
import Ambit.Proofs.Lookup.Failure
import Ambit.Proofs.Offer
import Ambit.Proofs.Completion
import Ambit.Proofs.FreshName.Spelling
import Ambit.Proofs.NameSupply.Transcript
import Ambit.Proofs.Extension
import Ambit.Proofs.Stopping
import Ambit.Proofs.Lookup.Places
import Ambit.Proofs.Member.Unhidden
import Ambit.Proofs.Lineage.Order
import Ambit.Proofs.Member.Overriding
import Ambit.Proofs.Lineage.Derivation
import Ambit.Proofs.TypeRef.Fit
import Ambit.Proofs.Extension.Reduction
import Ambit.Proofs.Extension.Mark
import Ambit.Proofs.Token.Chain
import Ambit.Proofs.Receiver
import Ambit.Proofs.Store.Innermost
import Ambit.Proofs.Completion.Collapse
import Ambit.Proofs.Token.Partition
import Ambit.Proofs.Token.Whole
import Ambit.Proofs.Cursor.Chain
import Ambit.Proofs.Cursor.Spacing
import Ambit.Proofs.Offer.Behind
import Ambit.Proofs.Offer.Self
import Ambit.Proofs.Completion.Pattern
import Ambit.Proofs.Completion.TypePosition
import Ambit.Proofs.Store.Inward
import Ambit.Proofs.Sketch.Growth
import Ambit.Proofs.Sketch.Spelling
import Ambit.Proofs.Text.Place
import Ambit.Proofs.Sketch.Locate
import Ambit.Proofs.TypeRef.Composition
import Ambit.Proofs.TypeRef.Solution
