import PromptPack.ByName
import PromptPack.Command.Completions
import PromptPack.Command.Compress
import PromptPack.Command.Excludes
import PromptPack.Command.Init
import PromptPack.Command.Pack
import PromptPack.Command.Run
import PromptPack.Command.Settings
import PromptPack.Command.Tree
import PromptPack.CommandLine.Arguments
import PromptPack.CommandLine.Grammar
import PromptPack.CommandLine.Invocation
import PromptPack.Config
import PromptPack.Console
import PromptPack.Content
import PromptPack.Data.Basic
import PromptPack.Data.Ini
import PromptPack.Data.Json
import PromptPack.Data.Json5
import PromptPack.Data.Ron
import PromptPack.Data.Toml
import PromptPack.Data.Yaml
import PromptPack.Decimal.Shortest
import PromptPack.Delivery
import PromptPack.Entry
import PromptPack.Exclusion
import PromptPack.Failure
import PromptPack.FileSystem
import PromptPack.Glob.Builtin
import PromptPack.Glob.Lines
import PromptPack.Glob.Match
import PromptPack.Glob.Pattern
import PromptPack.Ignore.Ambient
import PromptPack.Ignore.Rule
import PromptPack.Listing
import PromptPack.Main
import PromptPack.Manifest
import PromptPack.Omissions
import PromptPack.Outline.Balance
import PromptPack.Outline.Chunk
import PromptPack.Outline.Compress
import PromptPack.Outline.Hit
import PromptPack.Outline.Language
import PromptPack.Outline.Rules
import PromptPack.Outline.Rules.Html
import PromptPack.Outline.Rules.Java
import PromptPack.Outline.Rules.Swift
import PromptPack.Outline.Search
import PromptPack.Packing
import PromptPack.Path
import PromptPack.Prompt
import PromptPack.Proofs.Outline.Assembly
import PromptPack.Regex.Basic
import PromptPack.Report
import PromptPack.Revision.BranchPair
import PromptPack.Revision.LineChange
import PromptPack.Revision.Matching
import PromptPack.Revision.ObjectId
import PromptPack.Revision.Patch
import PromptPack.Revision.Query
import PromptPack.Revision.Rename
import PromptPack.Revision.Repository
import PromptPack.Revision.Settling
import PromptPack.Revision.Snapshot
import PromptPack.Syntax.Bash
import PromptPack.Syntax.Bash.Token
import PromptPack.Syntax.C
import PromptPack.Syntax.C.Token
import PromptPack.Syntax.Css
import PromptPack.Syntax.Go
import PromptPack.Syntax.JavaScript
import PromptPack.Syntax.JavaScript.Token
import PromptPack.Syntax.Python
import PromptPack.Syntax.Rust
import PromptPack.Syntax.Token
import PromptPack.Template.Parse
import PromptPack.Template.Render
import PromptPack.Template.Syntax
import PromptPack.Template.Tag
import PromptPack.Text.Blank
import PromptPack.Text.Category
import PromptPack.Text.Decoding
import PromptPack.Text.Fence
import PromptPack.Text.Grouped
import PromptPack.Text.Word
import PromptPack.Tokens.Correction
import PromptPack.Tokens.Counter
import PromptPack.Tokens.Digest
import PromptPack.Tokens.Encoding
import PromptPack.Tokens.Entries
import PromptPack.Tokens.Fragments
import PromptPack.Tokens.Merge
import PromptPack.Tokens.Piece
import PromptPack.Tokens.Scripts
import PromptPack.Tokens.Vocabulary
import PromptPack.Tokens.Words
import PromptPack.Walk
import PromptPack.World
import PromptPack.Proofs.Outline.Shown
import PromptPack.Proofs.Outline.Outermost
import PromptPack.Proofs.Regex.Language
import PromptPack.Proofs.Outline.Nesting
import PromptPack.Proofs.Outline.Headers
import PromptPack.Proofs.ByName
import PromptPack.Proofs.Listing.Insert
import PromptPack.Proofs.Listing.Nodes
import PromptPack.Proofs.Omissions.Record
import PromptPack.Proofs.FileSystem.Tree
import PromptPack.Proofs.Path.Order
import PromptPack.Proofs.Walk.Coherent
import PromptPack.Proofs.Walk.Globs
import PromptPack.Proofs.Walk.Pruned
import PromptPack.Proofs.Walk.Kept
import PromptPack.Proofs.FileSystem.Writing
import PromptPack.Proofs.Delivery.Effects
import PromptPack.Proofs.Packing.Accounts
import PromptPack.Proofs.Packing.Agreement
import PromptPack.Proofs.Command.Pack
import PromptPack.Proofs.Command.DryRun
import PromptPack.Proofs.Outline.Maximal
import PromptPack.Proofs.Template.Fields
import PromptPack.Proofs.Template.Segments
import PromptPack.Proofs.Template.Rendering
import PromptPack.Proofs.Prompt.Builtin
import PromptPack.Proofs.Delivery.Once
import PromptPack.Proofs.Yields
import PromptPack.Proofs.EscapeFree.Text
import PromptPack.Proofs.EscapeFree.Files
import PromptPack.Proofs.EscapeFree.Globs
import PromptPack.Proofs.EscapeFree.Packing
import PromptPack.Proofs.EscapeFree.Outline
import PromptPack.Proofs.EscapeFree.Template
import PromptPack.Proofs.EscapeFree.Prompt
import PromptPack.Proofs.EscapeFree.Patch
import PromptPack.Proofs.EscapeFree.Delivery
import PromptPack.Proofs.EscapeFree.Pack
import PromptPack.Proofs.EscapeFree.Arguments
import PromptPack.Proofs.EscapeFree.Command
import PromptPack.Proofs.Json.Grammar
import PromptPack.Proofs.Json.Printing
import PromptPack.Proofs.Report.Document
import PromptPack.Proofs.Outline.RawText
import PromptPack.Proofs.Walk.Placed
import PromptPack.Proofs.Walk.GitDirectory
import PromptPack.Proofs.Glob.Builtin
import PromptPack.Proofs.FileSystem.Below
import PromptPack.Proofs.Command.Expansion
import PromptPack.Proofs.Tokens.Tally
import PromptPack.Proofs.Outline.Greedy
import PromptPack.Proofs.Outline.Braces
import PromptPack.Proofs.Outline.BodyEnd
import PromptPack.Proofs.Listing.Lines
import PromptPack.Proofs.Listing.Drawing
import PromptPack.Proofs.Listing.Reordering
import PromptPack.Proofs.Outline.Invariance
import PromptPack.Proofs.Walk.GlobSets
import PromptPack.Proofs.Outline.Repeats
import PromptPack.Proofs.Glob.Contents
import PromptPack.Proofs.Walk.Pruning
import PromptPack.Proofs.Regex.Moved
import PromptPack.Proofs.Regex.Beginnings
import PromptPack.Proofs.Outline.Beginnings
import PromptPack.Proofs.Outline.Padding
import PromptPack.Proofs.Walk.IgnoreFiles
import PromptPack.Proofs.Text.Fence
import PromptPack.Proofs.Text.Numbering
import PromptPack.Proofs.Entry.Fallback
import PromptPack.Proofs.Omissions.Totals
import PromptPack.Proofs.Tokens.Correction
import PromptPack.Proofs.Outline.Leading
import PromptPack.Proofs.Syntax.Places
import PromptPack.Proofs.Syntax.Trees
import PromptPack.Proofs.Syntax.C.Tokens
import PromptPack.Proofs.Syntax.C.Grammar
import PromptPack.Proofs.Syntax.C.Reading
import PromptPack.Proofs.Syntax.C.Rows
import PromptPack.Proofs.Syntax.C.Starts
import PromptPack.Proofs.Syntax.C.Kept
import PromptPack.Proofs.Syntax.C.Guards
import PromptPack.Proofs.Syntax.JavaScript.Tokens
import PromptPack.Proofs.Syntax.JavaScript.Starts
import PromptPack.Proofs.Syntax.JavaScript.Bindings
import PromptPack.Proofs.Syntax.JavaScript.Shifted
import PromptPack.Proofs.Syntax.JavaScript.Exports
import PromptPack.Proofs.Revision.BranchPair
import PromptPack.Proofs.Glob.Lines
import PromptPack.Proofs.Exclusion.Precedence
import PromptPack.Proofs.Config.LastWord
import PromptPack.Proofs.Glob.Faults
