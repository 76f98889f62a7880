import ProcCheck.Analysis.Session
import ProcCheck.Main
import ProcCheck.Proofs.Analysis.Run
import ProcCheck.Proofs.Tree.Induction
import ProcCheck.Proofs.Tree.Known
import ProcCheck.Proofs.Analysis.Reading
import ProcCheck.Proofs.Analysis.Diagnostics
import ProcCheck.Proofs.Grammar.Canonical
import ProcCheck.Proofs.Tree.Place
import ProcCheck.Proofs.Grammar.Precedence
import ProcCheck.Proofs.Grammar.Read
import ProcCheck.Proofs.Grammar.ExpressionSoundness
import ProcCheck.Proofs.Grammar.Spelling
import ProcCheck.Proofs.Grammar.Equations
import ProcCheck.Proofs.Grammar.Soundness
import ProcCheck.Proofs.Grammar.ExpressionCompleteness
import ProcCheck.Proofs.Grammar.Completeness
import ProcCheck.Proofs.Token.Layout
import ProcCheck.Proofs.Analysis.Returned
import ProcCheck.Proofs.Analysis.Tables
import ProcCheck.Proofs.Token.Adjacent
import ProcCheck.Proofs.Grammar.Walk
import ProcCheck.Proofs.Grammar.Source
import ProcCheck.Proofs.Grammar.Snapshot
import ProcCheck.Proofs.Tree.Moved
import ProcCheck.Proofs.Grammar.Moved
import ProcCheck.Proofs.Grammar.Known
import ProcCheck.Proofs.Grammar.Numbered
import ProcCheck.Proofs.Analysis.Moved
import ProcCheck.Proofs.Analysis.Safety
import ProcCheck.Proofs.Analysis.Relayout
import ProcCheck.Proofs.Analysis.Footprint
import ProcCheck.Proofs.Analysis.Growth
import ProcCheck.Proofs.Analysis.Bodies
import ProcCheck.Proofs.Analysis.Walks
import ProcCheck.Proofs.Analysis.CutShort
import ProcCheck.Proofs.Analysis.AppendOnly
import ProcCheck.Proofs.Grammar.Recast
import ProcCheck.Proofs.Token.Renamed
import ProcCheck.Proofs.Grammar.Renamed
import ProcCheck.Proofs.Analysis.Recast
import ProcCheck.Proofs.Analysis.Renamed
import ProcCheck.Proofs.Analysis.Initial
import ProcCheck.Proofs.Analysis.Nesting
import ProcCheck.Proofs.Grammar.FirstError
import ProcCheck.Proofs.Grammar.Places
import ProcCheck.Proofs.Analysis.Compound
import ProcCheck.Proofs.Analysis.Watch
import ProcCheck.Proofs.Analysis.Visits
import ProcCheck.Proofs.Grammar.Calls
import ProcCheck.Proofs.Analysis.Classified
import ProcCheck.Proofs.Token.Reached
import ProcCheck.Proofs.Token.Continued
import ProcCheck.Proofs.Token.LineBreak
import ProcCheck.Proofs.Token.Separated
import ProcCheck.Proofs.Token.Refused
import ProcCheck.Proofs.Grammar.Rejected
import ProcCheck.Proofs.Report.Snippet
import ProcCheck.Proofs.Report.Underline
import ProcCheck.Proofs.Report.WholeLine
import ProcCheck.Proofs.Tree.Node
import ProcCheck.Proofs.Token.Order
import ProcCheck.Proofs.Grammar.ExpressionExtents
import ProcCheck.Proofs.Grammar.Extents
import ProcCheck.Proofs.Grammar.Located
import ProcCheck.Proofs.Command.Exec
import ProcCheck.Proofs.Command.Segments
import ProcCheck.Proofs.Report.Unstyled
import ProcCheck.Proofs.Report.Styling
import ProcCheck.Proofs.Files.Path
import ProcCheck.Proofs.Files.Tree
import ProcCheck.Proofs.Command.LogOnly
import ProcCheck.Proofs.Report.Colour
import ProcCheck.Proofs.Report.Plain
import ProcCheck.Proofs.Command.Colour
import ProcCheck.Proofs.Text.KeyOrder
import ProcCheck.Proofs.Yaml.Ordered
import ProcCheck.Proofs.Config.Validation
