import VerifiedLinks.Api
import VerifiedLinks.Api.Listing
import VerifiedLinks.CommandLine.Arguments
import VerifiedLinks.CommandLine.Run
import VerifiedLinks.CommandLine.System
import VerifiedLinks.CommandLine.Task
import VerifiedLinks.Constants
import VerifiedLinks.ContentType
import VerifiedLinks.Decimal.Shortest
import VerifiedLinks.Json.Draft
import VerifiedLinks.Json.Number
import VerifiedLinks.Json.ReadError
import VerifiedLinks.Json.Token
import VerifiedLinks.Json.Value
import VerifiedLinks.Link
import VerifiedLinks.Main
import VerifiedLinks.Manifest.Basic
import VerifiedLinks.Manifest.Wire
import VerifiedLinks.Method
import VerifiedLinks.NameMap
import VerifiedLinks.Proofs.Link.Paths
import VerifiedLinks.Proofs.Manifest.Growth
import VerifiedLinks.Proofs.Manifest.Verify
import VerifiedLinks.Proofs.Route.Chain
import VerifiedLinks.Proofs.Route.Offers
import VerifiedLinks.Proofs.Route.Preorder
import VerifiedLinks.Proofs.Route.Thinning
import VerifiedLinks.Report.Summary
import VerifiedLinks.Result
import VerifiedLinks.Route.Basic
import VerifiedLinks.Route.Containment
import VerifiedLinks.Route.Display
import VerifiedLinks.Route.Endpoints
import VerifiedLinks.Route.Reader
import VerifiedLinks.Route.Validity
import VerifiedLinks.Route.Writer
import VerifiedLinks.Text.Blank
import VerifiedLinks.Text.Column
import VerifiedLinks.Text.Quoted
import VerifiedLinks.Text.Unprintable
import VerifiedLinks.Proofs.Json.Tokens
import VerifiedLinks.Proofs.Json.Nesting
import VerifiedLinks.Proofs.ContentType.Canonical
import VerifiedLinks.Proofs.Route.Fields
import VerifiedLinks.Proofs.Route.RoundTrip
import VerifiedLinks.Proofs.Route.Fits
import VerifiedLinks.Proofs.NameMap
import VerifiedLinks.Proofs.Manifest.RoundTrip
import VerifiedLinks.Proofs.Json.Reordering
import VerifiedLinks.Proofs.Route.Reordering
import VerifiedLinks.Proofs.Manifest.Reordering
import VerifiedLinks.Proofs.Text.ByteOrder
import VerifiedLinks.Proofs.Manifest.Outcomes
import VerifiedLinks.Proofs.Route.Rearranging
import VerifiedLinks.Proofs.Text.Lines
import VerifiedLinks.Proofs.Text.Literals
import VerifiedLinks.Proofs.Constants.Names
import VerifiedLinks.Proofs.Constants.SourceLines
import VerifiedLinks.Proofs.Constants.Clashes
import VerifiedLinks.Proofs.Constants.Identifiers
import VerifiedLinks.Proofs.CommandLine.Arguments
import VerifiedLinks.Proofs.CommandLine.ExitCodes
import VerifiedLinks.Proofs.Route.WellFormed
import VerifiedLinks.Proofs.Link.Prefixes
import VerifiedLinks.Proofs.Link.Rejections
import VerifiedLinks.Proofs.Link.Segments
import VerifiedLinks.Proofs.Route.Leaves
import VerifiedLinks.Proofs.Route.Choice
import VerifiedLinks.Proofs.Api.Members
import VerifiedLinks.Proofs.Api.Endpoints
import VerifiedLinks.Proofs.Api.Listing
import VerifiedLinks.Proofs.Route.Nodes
import VerifiedLinks.Proofs.Route.Relisting
import VerifiedLinks.Proofs.ContentType.Grammar
import VerifiedLinks.Proofs.ContentType.MediaTypes
import VerifiedLinks.Proofs.Text.Quoted
import VerifiedLinks.Proofs.Text.Endings
import VerifiedLinks.Proofs.ContentType.Tags
import VerifiedLinks.Proofs.Route.Heads
import VerifiedLinks.Proofs.Route.Unambiguous
import VerifiedLinks.Proofs.Constants.Values
import VerifiedLinks.Proofs.Report.Alignment
import VerifiedLinks.Proofs.Route.RawTexts
import VerifiedLinks.Proofs.Report.RowLines
