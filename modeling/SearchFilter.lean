import SearchFilter.CommandLine.Session
import SearchFilter.Filter.Component
import SearchFilter.Main
import SearchFilter.Proofs.Lexing
import SearchFilter.Proofs.Nesting
import SearchFilter.Proofs.AssertionText
import SearchFilter.Proofs.Steps
import SearchFilter.Proofs.Sketch
import SearchFilter.Proofs.Grammar
import SearchFilter.Proofs.Recognition
import SearchFilter.Proofs.Defects
import SearchFilter.Proofs.Endings
import SearchFilter.Proofs.Quotations
import SearchFilter.Proofs.OuterParentheses
import SearchFilter.Proofs.Expansion
import SearchFilter.Proofs.Calls
import SearchFilter.Proofs.Contexts
import SearchFilter.Proofs.Classification
import SearchFilter.Proofs.NamePieces
import SearchFilter.Proofs.NamePairs
import SearchFilter.Proofs.NameFilters
import SearchFilter.Proofs.Conjunctions
import SearchFilter.Proofs.ExpressionDepth
import SearchFilter.Proofs.ExpressionText
import SearchFilter.Proofs.ExpressionDefects
import SearchFilter.Proofs.LiteralShapes
import SearchFilter.Proofs.LiteralFailures
import SearchFilter.Proofs.LiteralForm
import SearchFilter.Proofs.Mappings
import SearchFilter.Proofs.Outlines
import SearchFilter.Proofs.TreeViews
import SearchFilter.Proofs.Disks
import SearchFilter.Proofs.Runs
import SearchFilter.Proofs.BrokenFiles
import SearchFilter.Proofs.Sessions
import SearchFilter.Proofs.TokenTexts
import SearchFilter.Proofs.Suggestions
