import Routebook.Catalogue
import Routebook.Command.Arguments
import Routebook.Command.Directory
import Routebook.Command.Path
import Routebook.Command.Report
import Routebook.Command.Request
import Routebook.Command.Run
import Routebook.Command.Topic
import Routebook.Config
import Routebook.Description
import Routebook.Digest
import Routebook.Entity
import Routebook.Fault
import Routebook.Journal
import Routebook.Json.Printer
import Routebook.Json.Reader
import Routebook.Json.Text
import Routebook.Json.Token
import Routebook.Location
import Routebook.Main
import Routebook.Navigation
import Routebook.Number.Binary64
import Routebook.Number.Notation
import Routebook.Number.Shortest
import Routebook.Page
import Routebook.Pattern
import Routebook.Proofs.Arrival
import Routebook.Proofs.Assembly
import Routebook.Proofs.Canonicity
import Routebook.Proofs.Carriers
import Routebook.Proofs.Copies
import Routebook.Proofs.Declarations
import Routebook.Proofs.Directories
import Routebook.Proofs.Endings
import Routebook.Proofs.Escaping
import Routebook.Proofs.Expressions
import Routebook.Proofs.Filling
import Routebook.Proofs.FixedPoints
import Routebook.Proofs.Groups
import Routebook.Proofs.Histories
import Routebook.Proofs.Independence
import Routebook.Proofs.Layout
import Routebook.Proofs.Lenses
import Routebook.Proofs.Lines
import Routebook.Proofs.Matching
import Routebook.Proofs.Members
import Routebook.Proofs.Merging
import Routebook.Proofs.Messages
import Routebook.Proofs.Numbering
import Routebook.Proofs.Objects
import Routebook.Proofs.Origins
import Routebook.Proofs.Percent
import Routebook.Proofs.Placeholders
import Routebook.Proofs.Reading
import Routebook.Proofs.Recovery
import Routebook.Proofs.Repeats
import Routebook.Proofs.Reports
import Routebook.Proofs.RoundTrip
import Routebook.Proofs.Rows
import Routebook.Proofs.Schemes
import Routebook.Proofs.Telling
import Routebook.Proofs.Tiling
import Routebook.Proofs.Tokens
import Routebook.Proofs.Verdict
import Routebook.Route
import Routebook.Session
import Routebook.Session.Making
import Routebook.Session.Step
import Routebook.Store
import Routebook.Table.Check
import Routebook.Table.Entry
import Routebook.Template
import Routebook.Template.Fields
import Routebook.Text.Blank
import Routebook.Text.Cut
import Routebook.Text.Digit
import Routebook.Text.Percent
import Routebook.Text.Printable
import Routebook.Text.Quoted
import Routebook.Text.Utf8
import Routebook.Url.Address
import Routebook.Url.Split
import Routebook.Value.Atom
import Routebook.Value.Entries
import Routebook.Value.Fault
import Routebook.Value.Kind
import Routebook.Value.Shape
import Routebook.Value.Signature
import Routebook.Value.Tree
