import Stencil.Main
import Stencil.Render.Sink
import Stencil.Store.Memory
import Stencil.Proofs.Decimal.Digits
import Stencil.Proofs.Json.Numeral
import Stencil.Proofs.Json.Printed
import Stencil.Proofs.Json.Record
import Stencil.Proofs.Value.Fields
import Stencil.Proofs.Json.Data
import Stencil.Proofs.Expr.Code
import Stencil.Proofs.Program.Code
import Stencil.Proofs.Expr.Grammar
import Stencil.Proofs.Expr.Literal
import Stencil.Proofs.Expr.Height
import Stencil.Proofs.Expr.Tallest
import Stencil.Proofs.Program.Assembly
import Stencil.Proofs.Program.Flatten
import Stencil.Proofs.Template.Pieces
import Stencil.Proofs.Program.Compile
import Stencil.Proofs.Cache.Coherence
import Stencil.Proofs.Cache.Transparency
import Stencil.Proofs.Render.Captures
import Stencil.Proofs.Expr.Enclosed
import Stencil.Proofs.Program.Reread
import Stencil.Proofs.Expr.Tagless
import Stencil.Proofs.Render.Tagless
import Stencil.Proofs.Template.Echoes
import Stencil.Proofs.Program.Contained
import Stencil.Proofs.Cache.Containment
import Stencil.Proofs.Expr.Names
import Stencil.Proofs.Render.Rounds
import Stencil.Proofs.Program.Names
import Stencil.Proofs.Render.Comparison
import Stencil.Proofs.Render.Limits
import Stencil.Proofs.Cache.Unnamed
import Stencil.Proofs.Cache.Formats
import Stencil.Proofs.Render.Work
import Stencil.Proofs.Render.Bounds
import Stencil.Proofs.Render.Termination
import Stencil.Proofs.Cache.Staleness
import Stencil.Proofs.Render.History
import Stencil.Proofs.Expr.Elsewhere
import Stencil.Proofs.Expr.Lexes
import Stencil.Proofs.Expr.Wrapped
import Stencil.Proofs.Template.Wrapped
import Stencil.Proofs.Store.Paths
import Stencil.Proofs.Store.Tree
import Stencil.Proofs.Store.Names
import Stencil.Proofs.Store.Layout
import Stencil.Proofs.Store.Contents
import Stencil.Proofs.Store.Removal
import Stencil.Proofs.Cache.Interchange
import Stencil.Proofs.Store.Mirror
import Stencil.Proofs.Store.Runs
import Stencil.Proofs.Store.Located
import Stencil.Proofs.Store.Damaged
import Stencil.Proofs.Render.Fetching
import Stencil.Proofs.Cache.Transactions
import Stencil.Proofs.Expr.Balanced
import Stencil.Proofs.Expr.Guarded
import Stencil.Proofs.Expr.Passes
import Stencil.Proofs.Template.Division
import Stencil.Proofs.Template.Fallback
import Stencil.Proofs.Expr.Paths
import Stencil.Proofs.Expr.Undefined
import Stencil.Proofs.Program.Mentions
import Stencil.Proofs.Program.Spots
import Stencil.Proofs.Program.Restored
import Stencil.Proofs.Render.Culprit
import Stencil.Proofs.Render.Blame
import Stencil.Proofs.Cache.Lines
import Stencil.Proofs.Render.Uncapped
import Stencil.Proofs.Render.Deeds
import Stencil.Proofs.Render.Trail
import Stencil.Proofs.Render.Inclusion
import Stencil.Proofs.Render.Walk
import Stencil.Proofs.Template.Comments
import Stencil.Proofs.Program.Comments
import Stencil.Proofs.Render.Comments
import Stencil.Proofs.Cache.Comments
import Stencil.Proofs.Template.Groups
import Stencil.Proofs.Template.Bytes
import Stencil.Proofs.Expr.Integers
import Stencil.Proofs.Render.Counters
import Stencil.Proofs.Expr.Dotted
import Stencil.Proofs.Expr.Placed
import Stencil.Proofs.Expr.Pointing
import Stencil.Proofs.Text.Entity
import Stencil.Proofs.Store.Segments
import Stencil.Proofs.Config.Layers
import Stencil.Proofs.Expr.Counted
import Stencil.Proofs.Expr.Bookkeeping
import Stencil.Proofs.Expr.Members
import Stencil.Proofs.Text.Slices
import Stencil.Proofs.Expr.Sliced
import Stencil.Proofs.Program.Sliced
