import EntryProbe.Go.Traversal
import EntryProbe.Main
import EntryProbe.Text.Unquoted
import EntryProbe.Proofs.Layout
import EntryProbe.Proofs.FirstBreak
import EntryProbe.Proofs.Weaving
import EntryProbe.Proofs.Reading
import EntryProbe.Proofs.SpanOrder
import EntryProbe.Proofs.Instrumenting
import EntryProbe.Proofs.InPlace
import EntryProbe.Proofs.Grammar.Together
import EntryProbe.Proofs.Grammar.Types
import EntryProbe.Proofs.Grammar.Expressions
import EntryProbe.Proofs.Grammar.Statements
import EntryProbe.Proofs.Grammar.Recognize
import EntryProbe.Proofs.Grammar.Fence
import EntryProbe.Proofs.Gaps
import EntryProbe.Proofs.Grammar.FirstGap
import EntryProbe.Proofs.Lexemes
import EntryProbe.Proofs.Scanning
import EntryProbe.Proofs.BlockTokens
import EntryProbe.Proofs.Splicing
import EntryProbe.Proofs.Grammar.Signatures
import EntryProbe.Proofs.Grammar.EntrySignature
import EntryProbe.Proofs.Rereading
import EntryProbe.Proofs.Contents
import EntryProbe.Proofs.Probing
import EntryProbe.Proofs.Rounds
import EntryProbe.Proofs.Tiling
import EntryProbe.Proofs.PathSteps
import EntryProbe.Proofs.ByteOrder
import EntryProbe.Proofs.Walks
import EntryProbe.Proofs.Untouched
import EntryProbe.Proofs.Listing
import EntryProbe.Proofs.Packages
import EntryProbe.Proofs.Semicolons
import EntryProbe.Proofs.HeadGap
import EntryProbe.Proofs.Reparsing
import EntryProbe.Proofs.Unquoting
import EntryProbe.Proofs.Trails
import EntryProbe.Proofs.Fates
import EntryProbe.Proofs.TwoWays
import EntryProbe.Proofs.Parents
import EntryProbe.Proofs.NamedFiles
import EntryProbe.Proofs.Destinations
import EntryProbe.Proofs.Quiet
import EntryProbe.Proofs.WorkDirs
import EntryProbe.Proofs.Stages
import EntryProbe.Proofs.Contract
import EntryProbe.Proofs.Carrying
import EntryProbe.Go.Comments
import EntryProbe.Proofs.KeptComments
import EntryProbe.Proofs.RunsWithoutComments
import EntryProbe.Go.TreeReader
import EntryProbe.Proofs.ReadBack
import EntryProbe.Proofs.RenderedTokens
import EntryProbe.Proofs.RoundTrip
import EntryProbe.Proofs.InsideLiterals
import EntryProbe.Proofs.PairedBreaks
import EntryProbe.Proofs.LineEndings
import EntryProbe.Proofs.Bindings
import EntryProbe.Proofs.NewPlaces
import EntryProbe.Proofs.InTurn
import EntryProbe.Proofs.Plans
import EntryProbe.Proofs.Visiting
import EntryProbe.Proofs.Errands
import EntryProbe.Proofs.DefaultNames
import EntryProbe.Proofs.Regrouping
