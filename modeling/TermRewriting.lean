import TermRewriting.Bindings
import TermRewriting.Bindings.Versions
import TermRewriting.Console
import TermRewriting.Console.Arguments
import TermRewriting.Console.Choice
import TermRewriting.Console.Command
import TermRewriting.Console.Dialogue
import TermRewriting.Console.Display
import TermRewriting.Console.Files
import TermRewriting.Console.Filter
import TermRewriting.Console.History
import TermRewriting.Console.Line
import TermRewriting.Console.Log
import TermRewriting.Console.Program
import TermRewriting.Console.Report
import TermRewriting.Console.Script
import TermRewriting.Error
import TermRewriting.Main
import TermRewriting.Matching
import TermRewriting.Proofs.Attempts
import TermRewriting.Proofs.Conversation
import TermRewriting.Proofs.Equation
import TermRewriting.Proofs.Filling
import TermRewriting.Proofs.Grammar
import TermRewriting.Proofs.Instance
import TermRewriting.Proofs.Plugging
import TermRewriting.Proofs.Position
import TermRewriting.Proofs.Printing
import TermRewriting.Proofs.Provenance
import TermRewriting.Proofs.Redex
import TermRewriting.Proofs.Renaming
import TermRewriting.Proofs.Respacing
import TermRewriting.Proofs.Spans
import TermRewriting.Proofs.Viability
import TermRewriting.Reader
import TermRewriting.Rewriting
import TermRewriting.Rule
import TermRewriting.Substitution
import TermRewriting.Term
import TermRewriting.Text.Alphanumeric
import TermRewriting.Text.Blank
import TermRewriting.Text.Cluster
import TermRewriting.Text.Cluster.Class
import TermRewriting.Text.Cluster.Tables
import TermRewriting.Text.ControlSequence
import TermRewriting.Text.Extending
import TermRewriting.Text.Lines
import TermRewriting.Text.Quoted
import TermRewriting.Text.Ranges
import TermRewriting.Text.Similarity
import TermRewriting.Token
import TermRewriting.Token.Lexer
import TermRewriting.Workspace
import TermRewriting.Console.Loop
import TermRewriting.Proofs.Continuation
import TermRewriting.Proofs.Composition
import TermRewriting.Proofs.Strays
import TermRewriting.Proofs.Generality
import TermRewriting.Proofs.Growth
import TermRewriting.Proofs.Handwork
import TermRewriting.Proofs.Sides
import TermRewriting.Proofs.Culprit
import TermRewriting.Proofs.Extent
import TermRewriting.Proofs.Listing
import TermRewriting.Proofs.Lineage
import TermRewriting.Proofs.Reordering
import TermRewriting.Proofs.Cutting
import TermRewriting.Proofs.Expectation
