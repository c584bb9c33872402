import Bitext.Files.Tree
import Bitext.Main
import Bitext.Proofs.Job.Export
import Bitext.Proofs.Query.Retrieval
import Bitext.Proofs.Tmx.Damage
import Bitext.Proofs.Tmx.Origin
import Bitext.Proofs.Tmx.Overdue
import Bitext.Proofs.Tmx.Recovery
import Bitext.Proofs.Transfer.Order
import Bitext.Proofs.Memory.Ranking
import Bitext.Proofs.Memory.Scan
import Bitext.Proofs.Memory.Direction
import Bitext.Proofs.Query.Agreement
import Bitext.Proofs.Job.Duplicates
import Bitext.Proofs.Transfer.Visible
import Bitext.Proofs.Markup.Content
import Bitext.Proofs.Markup.Strict
import Bitext.Proofs.Markup.Inline
import Bitext.Proofs.Markup.Projection
import Bitext.Proofs.Tmx.PairFilter
import Bitext.Proofs.Tmx.Listed
import Bitext.Proofs.Tmx.Surviving
import Bitext.Proofs.Tmx.Exposure
import Bitext.Proofs.Score.Exhaustive
import Bitext.Proofs.Batch
import Bitext.Proofs.Job.ContentCheck
import Bitext.Proofs.Markup.Stripping
import Bitext.Proofs.Markup.Rounds
import Bitext.Proofs.Markup.Printing
import Bitext.Proofs.Markup.Repaired
import Bitext.Proofs.Text.Words
import Bitext.Proofs.Markup.Names
import Bitext.Proofs.Markup.Placeholder
import Bitext.Proofs.Query.Report
import Bitext.Proofs.Tmx.Session
import Bitext.Proofs.Markup.Tightening
import Bitext.Proofs.Transfer.Spans
import Bitext.Proofs.Settings.Scores
import Bitext.Proofs.Files.Way
import Bitext.Proofs.Files.Removal
import Bitext.Proofs.Files.Sound
import Bitext.Proofs.Job.Deletion
