import SelectorForge.Text.Basic
import SelectorForge.Text.Blank
import SelectorForge.Text.Lowercase
import SelectorForge.Text.Printable
import SelectorForge.Text.Alphanumeric
import SelectorForge.Text.Quoted
import SelectorForge.Text.Words
import SelectorForge.Text.Terminal
import SelectorForge.Number.Decimal
import SelectorForge.Number.Double
import SelectorForge.Number.Shortest
import SelectorForge.Json.Fields
import SelectorForge.Json.Basic
import SelectorForge.Json.Literal
import SelectorForge.Json.Writer
import SelectorForge.Json.Reader
import SelectorForge.Selector.Stage
import SelectorForge.Selector.Config
import SelectorForge.Selector.Compound
import SelectorForge.Selector.Combination
import SelectorForge.Selector.Builder
import SelectorForge.Selector.Fragment
import SelectorForge.Store.Name
import SelectorForge.Store.Value
import SelectorForge.Store.Scalar
import SelectorForge.Store.Fault
import SelectorForge.Store.Attribute
import SelectorForge.Store.Assignment
import SelectorForge.Store.Display
import SelectorForge.Store.Equality
import SelectorForge.Store.Keys
import SelectorForge.Store.Members
import SelectorForge.Store.Copy
import SelectorForge.Store.Opening
import SelectorForge.Store.Encode
import SelectorForge.Store.Revive
import SelectorForge.Store.Product
import SelectorForge.Store.Effect
import SelectorForge.Store.Selector
import SelectorForge.Session.Aspect
import SelectorForge.Session.Recipe
import SelectorForge.Session.Portrait
import SelectorForge.Session.Step
import SelectorForge.Session.Document
import SelectorForge.CommandLine.Arguments
import SelectorForge.CommandLine.Usage
import SelectorForge.CommandLine.Run
import SelectorForge.CommandLine.Capture
import SelectorForge.Main
import SelectorForge.Proofs.Selector.History
import SelectorForge.Proofs.Selector.Grammar
import SelectorForge.Proofs.Selector.Build
import SelectorForge.Proofs.Store.Growth
import SelectorForge.Proofs.Json.Members
import SelectorForge.Proofs.Json.Grammar
import SelectorForge.Proofs.Json.Numeral
import SelectorForge.Proofs.Json.Strings
import SelectorForge.Proofs.Json.Reading
import SelectorForge.Proofs.Json.Writing
import SelectorForge.Proofs.Store.Depiction
import SelectorForge.Proofs.Store.RoundTrip
import SelectorForge.Proofs.Store.Revival
import SelectorForge.Proofs.Selector.Unambiguous
import SelectorForge.Proofs.CommandLine.Operand
import SelectorForge.Proofs.Store.Policy
import SelectorForge.Proofs.Store.Changes
import SelectorForge.Proofs.Store.Obedience
import SelectorForge.Proofs.Session.Making
import SelectorForge.Proofs.Session.Steps
import SelectorForge.Proofs.Session.Snapshot
import SelectorForge.Proofs.Session.Portraits
import SelectorForge.Proofs.Session.Apart
import SelectorForge.Proofs.Session.Keeping
import SelectorForge.Proofs.Session.Alone
import SelectorForge.Proofs.Store.Cycles
import SelectorForge.Proofs.Session.Construction
import SelectorForge.Proofs.Session.Twins
import SelectorForge.Proofs.Session.Saved
import SelectorForge.Proofs.Store.Composed
import SelectorForge.Proofs.Store.Copied
import SelectorForge.Proofs.Store.Opened
import SelectorForge.Proofs.Store.Anywhere
import SelectorForge.Proofs.Text.Folding
import SelectorForge.Proofs.Selector.Names
import SelectorForge.Proofs.Selector.Rendering
import SelectorForge.Proofs.Session.Texts
import SelectorForge.Proofs.Text.Legible
import SelectorForge.Proofs.CommandLine.Outcomes
import SelectorForge.Proofs.Session.Steady
import SelectorForge.Proofs.Session.Association
import SelectorForge.Proofs.Store.Compact
import SelectorForge.Proofs.Store.Same
import SelectorForge.Proofs.Store.Areas
import SelectorForge.Proofs.Store.ValueObjects
import SelectorForge.Proofs.Session.Interchange
