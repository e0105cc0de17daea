import HtmlTree.Dom.Operations
import HtmlTree.Logging.Registry
import HtmlTree.Markup.Render
import HtmlTree.Parse
import HtmlTree.Settings.Live
import HtmlTree.Proofs.Dom.Calls
import HtmlTree.Proofs.Markup.RawText
import HtmlTree.Proofs.RoundTrip
import HtmlTree.Proofs.StrictParse
import HtmlTree.Proofs.Dom.Attributes
import HtmlTree.Proofs.Markup.NormalForm
import HtmlTree.Proofs.Markup.Rebuild
import HtmlTree.Proofs.Dom.Blocks
import HtmlTree.Proofs.RawRoundTrip
import HtmlTree.Proofs.Dom.Outline
import HtmlTree.Proofs.Markup.ParentLinks
import HtmlTree.Proofs.Settings.Keys
import HtmlTree.Proofs.Settings.Reopened
import HtmlTree.Proofs.Dom.Coalesced
import HtmlTree.Proofs.Markup.JoinedTexts
import HtmlTree.Proofs.Markup.Siblings
import HtmlTree.Proofs.Markup.BetweenTags
import HtmlTree.Proofs.Settings.Loading
import HtmlTree.Proofs.Markup.Order
import HtmlTree.Proofs.Markup.Attributes
import HtmlTree.Proofs.DocumentPrefix
import HtmlTree.Proofs.Markup.RepeatedNames
import HtmlTree.Proofs.Settings.Independent
import HtmlTree.Proofs.Dom.Undo
import HtmlTree.Proofs.Logging.SetUp
import HtmlTree.Proofs.Logging.Console
import HtmlTree.Proofs.DocumentParts
import HtmlTree.Proofs.Worklists
import HtmlTree.Proofs.Logging.Colours
