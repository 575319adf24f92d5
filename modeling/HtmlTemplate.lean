import HtmlTemplate.Application.Native
import HtmlTemplate.Application.Observer
import HtmlTemplate.Application.User
import HtmlTemplate.Config.Settings
import HtmlTemplate.Environment
import HtmlTemplate.Json
import HtmlTemplate.Proofs.Blocks.Patterns
import HtmlTemplate.Proofs.Blocks.Tags
import HtmlTemplate.Proofs.Blocks.Templates
import HtmlTemplate.Proofs.Concatenation.Rendering
import HtmlTemplate.Proofs.Dependence.Rendering
import HtmlTemplate.Proofs.Display.Integers
import HtmlTemplate.Proofs.Display.Quotation
import HtmlTemplate.Proofs.Display.Reading
import HtmlTemplate.Proofs.Display.Values
import HtmlTemplate.Proofs.Escaping.ByteLists
import HtmlTemplate.Proofs.Escaping.Bytes
import HtmlTemplate.Proofs.Escaping.Offsets
import HtmlTemplate.Proofs.Escaping.Scripts
import HtmlTemplate.Proofs.Escaping.Templates
import HtmlTemplate.Proofs.Faults.Positions
import HtmlTemplate.Proofs.Helper.Attributes
import HtmlTemplate.Proofs.Helper.Bodies
import HtmlTemplate.Proofs.Helper.Destinations
import HtmlTemplate.Proofs.Helper.Paragraphs
import HtmlTemplate.Proofs.Helper.Trusted
import HtmlTemplate.Proofs.Literals.Inlining
import HtmlTemplate.Proofs.Literals.Numerals
import HtmlTemplate.Proofs.Markup.Building
import HtmlTemplate.Proofs.Nesting.Templates
import HtmlTemplate.Proofs.Rendering.Correctness
import HtmlTemplate.Proofs.Rendering.Fitting
import HtmlTemplate.Proofs.Scoping.Acceptance
import HtmlTemplate.Proofs.Scoping.Places
import HtmlTemplate.Proofs.Scoping.Sources
import HtmlTemplate.Proofs.Segments.Segment
import HtmlTemplate.Proofs.Segments.Templates
import HtmlTemplate.Proofs.Segments.Verbatim
import HtmlTemplate.Proofs.Storage.Freshness
import HtmlTemplate.Proofs.Syntax.Printed
