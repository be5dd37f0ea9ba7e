import ComponentCompiler.Project.Build
import ComponentCompiler.Proofs.Component.Hiding
import ComponentCompiler.Proofs.Component.Markers
import ComponentCompiler.Proofs.Component.Placeholders
import ComponentCompiler.Proofs.Component.Idempotence
import ComponentCompiler.Proofs.Component.Steps
import ComponentCompiler.Proofs.Component.DepthLimit
import ComponentCompiler.Proofs.Html.TagText
import ComponentCompiler.Proofs.Markup.SelfClosing
import ComponentCompiler.Proofs.Expression.Grammar
import ComponentCompiler.Proofs.Expression.Recognition
import ComponentCompiler.Proofs.Style.Piece
import ComponentCompiler.Proofs.Style.Selectors
import ComponentCompiler.Proofs.Style.Sheet
import ComponentCompiler.Proofs.Markup.TagReading
import ComponentCompiler.Proofs.Template.Outline
import ComponentCompiler.Proofs.Text.Unambiguous
import ComponentCompiler.Proofs.Markup.Injectivity
import ComponentCompiler.Proofs.Text.WholeWords
import ComponentCompiler.Proofs.Json.Reading
import ComponentCompiler.Proofs.Script.Defaults
import ComponentCompiler.Proofs.Script.Authoring
import ComponentCompiler.Proofs.Script.Renaming
import ComponentCompiler.Proofs.Component.TableOrder
import ComponentCompiler.Proofs.Script.Lexing
import ComponentCompiler.Proofs.Script.Passing.Expressions
import ComponentCompiler.Proofs.Script.Passing.Statements
import ComponentCompiler.Proofs.Component.Growth
import ComponentCompiler.Proofs.Component.Lockstep
import ComponentCompiler.Proofs.Markup.Verbatim
import ComponentCompiler.Proofs.Markup.Address
import ComponentCompiler.Proofs.Component.Page
import ComponentCompiler.Proofs.Markup.SlotBySlot
import ComponentCompiler.Proofs.Component.UsageSites
import ComponentCompiler.Proofs.Files.Places
import ComponentCompiler.Proofs.Files.Following
import ComponentCompiler.Proofs.Files.Folders
import ComponentCompiler.Proofs.Files.Preparation
import ComponentCompiler.Proofs.Project.Steps
import ComponentCompiler.Proofs.Project.Sources
import ComponentCompiler.Proofs.Project.Delivery
import ComponentCompiler.Proofs.Expression.Path
import ComponentCompiler.Proofs.Expression.Lexing
import ComponentCompiler.Proofs.Expression.Printing
import ComponentCompiler.Proofs.Template.Context
import ComponentCompiler.Proofs.Template.Forwarding
import ComponentCompiler.Proofs.Markup.Lineage
import ComponentCompiler.Proofs.Template.Directives
import ComponentCompiler.Proofs.Identity.Labels
import ComponentCompiler.Proofs.Identity.Allocation
import ComponentCompiler.Proofs.Identity.Requests
import ComponentCompiler.Proofs.Json.Members
import ComponentCompiler.Proofs.Json.Scalars
import ComponentCompiler.Proofs.Script.BareKeys
import ComponentCompiler.Proofs.Script.Literals
import ComponentCompiler.Proofs.Script.Opening
import ComponentCompiler.Proofs.Script.WordRenaming
import ComponentCompiler.Proofs.Script.Splicing
import ComponentCompiler.Proofs.Script.Activation
import ComponentCompiler.Proofs.Text.Lowercase
import ComponentCompiler.Proofs.Lookup
import ComponentCompiler.Proofs.Component.Keys
import ComponentCompiler.Proofs.Project.Discovery
import ComponentCompiler.Proofs.Project.Spellings
import ComponentCompiler.Proofs.Text.Boundaries
import ComponentCompiler.Proofs.Style.Offsets
import ComponentCompiler.Proofs.Style.Cuts
import ComponentCompiler.Proofs.Style.Agreement
import ComponentCompiler.Proofs.Style.InPlace
import ComponentCompiler.Proofs.Markup.AttributeStates
import ComponentCompiler.Proofs.Number.Rounding
import ComponentCompiler.Proofs.Number.Shortest
import ComponentCompiler.Proofs.Number.Finite
import ComponentCompiler.Proofs.Json.Decimals
import ComponentCompiler.Proofs.Json.Exact
import ComponentCompiler.Proofs.Json.Finite
import ComponentCompiler.Proofs.Script.Assignments
