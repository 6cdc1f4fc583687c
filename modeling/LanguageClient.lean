import LanguageClient.Buffer
import LanguageClient.Change
import LanguageClient.Client.Basic
import LanguageClient.Client.Capabilities
import LanguageClient.Completion.Item
import LanguageClient.Completion.Ranking
import LanguageClient.Completion.Token
import LanguageClient.Content
import LanguageClient.Diagnostics
import LanguageClient.Document
import LanguageClient.Edit
import LanguageClient.Engine.Channel
import LanguageClient.Engine.Connection
import LanguageClient.Engine.Exchange
import LanguageClient.Engine.Loop
import LanguageClient.Engine.Publish
import LanguageClient.Engine.Queries
import LanguageClient.Engine.Rename
import LanguageClient.Engine.Run
import LanguageClient.Engine.Setup
import LanguageClient.Engine.State
import LanguageClient.Engine.Sync
import LanguageClient.Failure
import LanguageClient.Features
import LanguageClient.Framing
import LanguageClient.Json.Access
import LanguageClient.Json.Basic
import LanguageClient.Json.Binary64
import LanguageClient.Json.Display
import LanguageClient.Json.Equality
import LanguageClient.Json.Order
import LanguageClient.Json.Parser
import LanguageClient.Json.Printer
import LanguageClient.Log
import LanguageClient.Logger
import LanguageClient.Markdown.Block
import LanguageClient.Markdown.Definition
import LanguageClient.Markdown.Emphasis
import LanguageClient.Markdown.Entity
import LanguageClient.Markdown.Escape
import LanguageClient.Markdown.Html
import LanguageClient.Markdown.Inline
import LanguageClient.Markdown.Line
import LanguageClient.Markdown.Link
import LanguageClient.Markdown.Piece
import LanguageClient.Markdown.Punycode
import LanguageClient.Markdown.Tag
import LanguageClient.Markdown.Target
import LanguageClient.Markdown.Url
import LanguageClient.Message
import LanguageClient.Order
import LanguageClient.Proofs.Buffer.Lines
import LanguageClient.Proofs.Buffer.Offsets
import LanguageClient.Proofs.Buffer.Position
import LanguageClient.Proofs.Client.Attached
import LanguageClient.Proofs.Client.AutoClose
import LanguageClient.Proofs.Client.Begun
import LanguageClient.Proofs.Client.Chronicle
import LanguageClient.Proofs.Client.Closing
import LanguageClient.Proofs.Client.Consent
import LanguageClient.Proofs.Client.Correlation
import LanguageClient.Proofs.Client.Enduring
import LanguageClient.Proofs.Client.Granting
import LanguageClient.Proofs.Client.Handshake
import LanguageClient.Proofs.Client.History
import LanguageClient.Proofs.Client.Hopes
import LanguageClient.Proofs.Client.News
import LanguageClient.Proofs.Client.Reader
import LanguageClient.Proofs.Client.Replies
import LanguageClient.Proofs.Client.Roles
import LanguageClient.Proofs.Client.Routing
import LanguageClient.Proofs.Client.Sending
import LanguageClient.Proofs.Client.Settling
import LanguageClient.Proofs.Client.Turns
import LanguageClient.Proofs.Client.Wire
import LanguageClient.Proofs.Completion.Acceptance
import LanguageClient.Proofs.Completion.Filtering
import LanguageClient.Proofs.Completion.Line
import LanguageClient.Proofs.Completion.Members
import LanguageClient.Proofs.Completion.Notation
import LanguageClient.Proofs.Completion.Ranking
import LanguageClient.Proofs.Completion.Result
import LanguageClient.Proofs.Completion.Token
import LanguageClient.Proofs.Content
import LanguageClient.Proofs.Document.Batch
import LanguageClient.Proofs.Document.Calls
import LanguageClient.Proofs.Document.Convergence
import LanguageClient.Proofs.Document.Delivery
import LanguageClient.Proofs.Document.Fetches
import LanguageClient.Proofs.Document.Generations
import LanguageClient.Proofs.Document.InStep
import LanguageClient.Proofs.Document.Mirror
import LanguageClient.Proofs.Document.Moves
import LanguageClient.Proofs.Document.Placing
import LanguageClient.Proofs.Document.Presentation
import LanguageClient.Proofs.Document.Presenting
import LanguageClient.Proofs.Document.Publications
import LanguageClient.Proofs.Document.Publishing
import LanguageClient.Proofs.Document.Questions
import LanguageClient.Proofs.Document.Refusals
import LanguageClient.Proofs.Document.Renaming
import LanguageClient.Proofs.Document.Sequence
import LanguageClient.Proofs.Document.Superseding
import LanguageClient.Proofs.Document.Targets
import LanguageClient.Proofs.Document.Tracking
import LanguageClient.Proofs.Document.Utterances
import LanguageClient.Proofs.Document.Versions
import LanguageClient.Proofs.Document.Weave
import LanguageClient.Proofs.Document.Wording
import LanguageClient.Proofs.Edit.Atomic
import LanguageClient.Proofs.Edit.Insertions
import LanguageClient.Proofs.Edit.Parts
import LanguageClient.Proofs.Edit.Ranges
import LanguageClient.Proofs.Edit.Resolution
import LanguageClient.Proofs.Edit.Shift
import LanguageClient.Proofs.Edit.Word
import LanguageClient.Proofs.Edit.Workspace
import LanguageClient.Proofs.Engine.Connection
import LanguageClient.Proofs.Engine.Delayed
import LanguageClient.Proofs.Engine.Errands
import LanguageClient.Proofs.Engine.Exchange
import LanguageClient.Proofs.Engine.Features
import LanguageClient.Proofs.Engine.Inquiries
import LanguageClient.Proofs.Engine.Lasting
import LanguageClient.Proofs.Engine.Places
import LanguageClient.Proofs.Engine.Requests
import LanguageClient.Proofs.Engine.Route
import LanguageClient.Proofs.Engine.Run
import LanguageClient.Proofs.Engine.Slot
import LanguageClient.Proofs.Engine.Spared
import LanguageClient.Proofs.Engine.Sparing
import LanguageClient.Proofs.Engine.Step
import LanguageClient.Proofs.Engine.Stretches
import LanguageClient.Proofs.Engine.Sync
import LanguageClient.Proofs.Engine.Tasks
import LanguageClient.Proofs.Engine.Undisturbed
import LanguageClient.Proofs.Engine.Waking
import LanguageClient.Proofs.Framing.Chunking
import LanguageClient.Proofs.Framing.Faults
import LanguageClient.Proofs.Framing.Header
import LanguageClient.Proofs.Framing.Pieces
import LanguageClient.Proofs.Framing.Progress
import LanguageClient.Proofs.Framing.RoundTrip
import LanguageClient.Proofs.Json.RoundTrip
import LanguageClient.Proofs.Json.Scalar
import LanguageClient.Proofs.Order
import LanguageClient.Proofs.Registry
import LanguageClient.Proofs.Signature.Highlight
import LanguageClient.Proofs.Signature.Trigger
import LanguageClient.Proofs.Table
import LanguageClient.Proofs.Text.Lower
import LanguageClient.Proofs.Text.Slice
import LanguageClient.Registry
import LanguageClient.SentChange
import LanguageClient.Settings.Basic
import LanguageClient.Settings.Reader
import LanguageClient.Shared
import LanguageClient.Signature
import LanguageClient.Table
import LanguageClient.Text.Alphanumeric
import LanguageClient.Text.Blank
import LanguageClient.Text.CellWidth
import LanguageClient.Text.DecimalDigit
import LanguageClient.Text.Emoji
import LanguageClient.Text.Integer
import LanguageClient.Text.Lower
import LanguageClient.Text.Printable
import LanguageClient.Text.Punctuation
import LanguageClient.Text.Quoted
import LanguageClient.Text.Ranges
import LanguageClient.Text.Slice
import LanguageClient.Text.Split
import LanguageClient.Text.Upper
import LanguageClient.Transport.Basic
import LanguageClient.Transport.Directory
import LanguageClient.Transport.Pipe
import LanguageClient.Transport.Socket
import LanguageClient.View
