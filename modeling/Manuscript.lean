import Manuscript.CommandLine.World
import Manuscript.Main
import Manuscript.Proofs.Render.LineStart
import Manuscript.Proofs.Render.Success
import Manuscript.Proofs.Render.TableOutput
import Manuscript.Proofs.Text.Words
import Manuscript.Proofs.Render.Paragraph
import Manuscript.Proofs.Render.ItemLabels
import Manuscript.Proofs.Document.Above
import Manuscript.Proofs.Render.Frame
import Manuscript.Proofs.Render.TitleStage
import Manuscript.Proofs.Render.KeepFirst
import Manuscript.Proofs.Render.TitleBlock
import Manuscript.Proofs.Calendar.Overflow
import Manuscript.Proofs.FrontMatter.Answers
import Manuscript.Proofs.Markdown.WellFormed
import Manuscript.Proofs.Render.Blocks
import Manuscript.Proofs.Render.ReadTree
import Manuscript.Proofs.Render.RequestStart
import Manuscript.Proofs.Render.TableCells
import Manuscript.Proofs.Render.NormalForm
import Manuscript.Proofs.CommandLine.Files
import Manuscript.Proofs.CommandLine.Logging
import Manuscript.Proofs.Render.Session
import Manuscript.Proofs.Typeset.Passes
import Manuscript.Proofs.CommandLine.Perform
import Manuscript.Proofs.CommandLine.Delivery
import Manuscript.Proofs.Render.Payloads
import Manuscript.Proofs.CommandLine.Status
import Manuscript.Proofs.Markdown.ByteOrderMark
import Manuscript.Proofs.Markdown.Literals
import Manuscript.Proofs.Table.Cellwise
import Manuscript.Proofs.Document.Places
import Manuscript.Proofs.Render.ListIndents
import Manuscript.Proofs.Render.TableBlocks
import Manuscript.Proofs.Markdown.Unwrapping
import Manuscript.Proofs.Text.Numeral
import Manuscript.Proofs.Calendar.Form
import Manuscript.Proofs.Calendar.Spelling
import Manuscript.Proofs.Calendar.Accepted
import Manuscript.Proofs.Calendar.WrittenDay
import Manuscript.Proofs.Calendar.ClockStamp
import Manuscript.Proofs.Text.PlainBytes
import Manuscript.Proofs.Calendar.Timestamp
import Manuscript.Proofs.Document.Order
import Manuscript.Proofs.Table.Bytes
import Manuscript.Proofs.Table.Spaces
import Manuscript.Proofs.Typeset.Runs
import Manuscript.Proofs.Table.InPlace
