import Stylesheet.Body
import Stylesheet.Builtin
import Stylesheet.Color.Basic
import Stylesheet.Color.Hsl
import Stylesheet.Color.Names
import Stylesheet.Command.Basic
import Stylesheet.Command.Disk
import Stylesheet.Command.Sources
import Stylesheet.Compile
import Stylesheet.Config.Basic
import Stylesheet.Config.Json
import Stylesheet.Context
import Stylesheet.Css.Basic
import Stylesheet.Css.Flatten
import Stylesheet.Css.Layout
import Stylesheet.Document
import Stylesheet.Error
import Stylesheet.Evaluation
import Stylesheet.Import.Path
import Stylesheet.Main
import Stylesheet.Mixin
import Stylesheet.Number.Binary
import Stylesheet.Number.Decimal
import Stylesheet.Number.Hexadecimal
import Stylesheet.Proofs.Selector.CrossProduct
import Stylesheet.Proofs.Selector.Normal
import Stylesheet.Scope
import Stylesheet.Selector.Basic
import Stylesheet.Selector.Expansion
import Stylesheet.Session
import Stylesheet.Sheet.Basic
import Stylesheet.Sheet.Reader
import Stylesheet.Table
import Stylesheet.Target.Browser
import Stylesheet.Target.Property
import Stylesheet.Text.Blank
import Stylesheet.Text.Composition
import Stylesheet.Text.Direction
import Stylesheet.Text.Joining
import Stylesheet.Text.Lines
import Stylesheet.Text.Mark
import Stylesheet.Text.Position
import Stylesheet.Text.Ranges
import Stylesheet.Text.Split
import Stylesheet.Token.Basic
import Stylesheet.Token.Lexeme
import Stylesheet.Token.Lexer
import Stylesheet.Token.Reader
import Stylesheet.Url.Address
import Stylesheet.Url.Authority
import Stylesheet.Url.Basic
import Stylesheet.Url.Character
import Stylesheet.Url.Domain
import Stylesheet.Url.Host
import Stylesheet.Url.Join
import Stylesheet.Url.Path
import Stylesheet.Url.Punycode
import Stylesheet.Value.Arithmetic
import Stylesheet.Value.Basic
import Stylesheet.Value.Printer
import Stylesheet.Value.Reader
import Stylesheet.Proofs.Css.Flattening
import Stylesheet.Proofs.Selector.Spread
import Stylesheet.Proofs.Selector.Ancestry
import Stylesheet.Proofs.Css.Ancestors
import Stylesheet.Proofs.Token.Cutting
import Stylesheet.Proofs.Token.Reading
import Stylesheet.Proofs.Nesting.Tree
import Stylesheet.Proofs.Nesting.Selectors
import Stylesheet.Proofs.Nesting.Values
import Stylesheet.Proofs.Nesting.Reading
import Stylesheet.Proofs.Nesting.Evaluation
import Stylesheet.Proofs.Nesting.Compilation
import Stylesheet.Proofs.Scribe.Basic
import Stylesheet.Proofs.Scribe.Runs
import Stylesheet.Proofs.Scribe.Agreement
import Stylesheet.Proofs.Scribe.Bodies
import Stylesheet.Proofs.Scribe.Drawing
import Stylesheet.Proofs.Scribe.Pages
import Stylesheet.Proofs.Scribe.Items
import Stylesheet.Proofs.Scribe.Documents
import Stylesheet.Proofs.Scribe.Containment
import Stylesheet.Proofs.Scribe.Traces
import Stylesheet.Proofs.Evaluation.Reduced
import Stylesheet.Proofs.Evaluation.Rules
import Stylesheet.Proofs.Evaluation.Shadowing
import Stylesheet.Proofs.Evaluation.Matching
import Stylesheet.Proofs.Selector.Levels
import Stylesheet.Proofs.Evaluation.Splicing
import Stylesheet.Proofs.Token.Grammar
import Stylesheet.Proofs.Sheet.Invariants
import Stylesheet.Proofs.Sheet.Selectors
import Stylesheet.Proofs.Text.Lines
import Stylesheet.Proofs.Token.Tiling
import Stylesheet.Proofs.Token.Progress
import Stylesheet.Proofs.Value.Shape
import Stylesheet.Proofs.Sheet.Shape
import Stylesheet.Proofs.Sheet.Diagnostics
import Stylesheet.Proofs.Css.Declarations
import Stylesheet.Proofs.Document.Items
import Stylesheet.Proofs.Document.Accounting
import Stylesheet.Proofs.Scope.Walk
import Stylesheet.Proofs.Selector.Context
import Stylesheet.Proofs.Selector.Shape
import Stylesheet.Proofs.Evaluation.Arguments
import Stylesheet.Proofs.Evaluation.Balance
import Stylesheet.Proofs.Evaluation.Scalars
import Stylesheet.Proofs.Mixin.References
import Stylesheet.Proofs.Mixin.Renaming
import Stylesheet.Proofs.Mixin.Hiding
import Stylesheet.Proofs.Mixin.Rebinding
import Stylesheet.Proofs.Mixin.Expansion
import Stylesheet.Proofs.Value.Steps
import Stylesheet.Proofs.Token.Stream
import Stylesheet.Proofs.Value.Precedence
import Stylesheet.Proofs.Value.Spelling
import Stylesheet.Proofs.Token.Values
import Stylesheet.Proofs.Value.RoundTrip
import Stylesheet.Proofs.Token.LookAhead
import Stylesheet.Proofs.Target.Copies
import Stylesheet.Proofs.Token.Brackets
import Stylesheet.Proofs.Token.Rewinding
import Stylesheet.Proofs.Sheet.Brackets
import Stylesheet.Proofs.Token.Appending
import Stylesheet.Proofs.Value.Extension
import Stylesheet.Proofs.Sheet.DefaultFlag
import Stylesheet.Proofs.Document.Failure
import Stylesheet.Proofs.Document.Joining
import Stylesheet.Proofs.Import.Ascent
import Stylesheet.Proofs.Target.Order
import Stylesheet.Proofs.Document.Loops
