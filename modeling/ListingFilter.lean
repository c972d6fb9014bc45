import ListingFilter.Main
import ListingFilter.Predicate.Basic
import ListingFilter.Proofs.Filter.Composition
import ListingFilter.Proofs.Filter.RoundTrip
import ListingFilter.Proofs.Predicate.Lawful
import ListingFilter.Proofs.Sql.Binding
import ListingFilter.Proofs.Sql.Fragments
import ListingFilter.Proofs.Sql.Grouping
import ListingFilter.Proofs.Sql.Selection
import ListingFilter.Proofs.Error
import ListingFilter.Proofs.Predicate.Leaves
import ListingFilter.Proofs.Sql.Refusal
import ListingFilter.Proofs.Filter.WellFormed
import ListingFilter.Proofs.Sql.Unfiltered
import ListingFilter.Proofs.Sql.Replay
import ListingFilter.Proofs.Filter.Quoting
import ListingFilter.Proofs.CommandLine
import ListingFilter.Proofs.Sql.Pruning
import ListingFilter.Proofs.Sql.Contents
import ListingFilter.Proofs.Sql.Quotation
import ListingFilter.Proofs.Predicate.Scoping
import ListingFilter.Proofs.Sql.Regrouping
import ListingFilter.Proofs.Sql.Relevance
import ListingFilter.Proofs.Sql.Scoping
import ListingFilter.Proofs.Token.Enclosing
import ListingFilter.Proofs.Filter.Nesting
import ListingFilter.Proofs.Filter.Parentheses
import ListingFilter.Proofs.Filter.Keyword
import ListingFilter.Proofs.Filter.ImplicitEquality
import ListingFilter.Proofs.Filter.ListSyntax
import ListingFilter.Proofs.Token.Division
import ListingFilter.Proofs.Token.Source
import ListingFilter.Proofs.Filter.Splitting
import ListingFilter.Proofs.Filter.Fragment
import ListingFilter.Proofs.Token.Tiling
import ListingFilter.Proofs.Token.Locality
import ListingFilter.Proofs.Filter.Group
import ListingFilter.Proofs.Json.Value
import ListingFilter.Proofs.Json.Decoding
import ListingFilter.Proofs.Json.Writing
import ListingFilter.Proofs.Settings.Form
import ListingFilter.Proofs.Json.Record
import ListingFilter.Proofs.Settings.Loading
