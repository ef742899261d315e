import InfoScreen.Main
import InfoScreen.Program.Directory
import InfoScreen.Proofs.Outcome
import InfoScreen.Proofs.Pattern
import InfoScreen.Proofs.RowPlan
import InfoScreen.Proofs.Layout
import InfoScreen.Proofs.Row
import InfoScreen.Proofs.Schedulable
import InfoScreen.Proofs.Schedule
import InfoScreen.Proofs.Displays
import InfoScreen.Proofs.Merge
import InfoScreen.Proofs.SingleBuffered
import InfoScreen.Proofs.Table
import InfoScreen.Proofs.Replay
import InfoScreen.Proofs.Requests
import InfoScreen.Proofs.Serial
import InfoScreen.Proofs.CheckFaults
import InfoScreen.Proofs.Banking
import InfoScreen.Proofs.CompileFaults
import InfoScreen.Proofs.BankNumbers
import InfoScreen.Proofs.Depth
import InfoScreen.Proofs.Offsets
import InfoScreen.Proofs.Digits
import InfoScreen.Proofs.Lines
import InfoScreen.Proofs.FieldWidths
import InfoScreen.Proofs.Relisting
import InfoScreen.Proofs.Uncovered
import InfoScreen.Proofs.BootFile
import InfoScreen.Proofs.Unambiguous
import InfoScreen.Proofs.Rendering
import InfoScreen.Proofs.BankPaths
import InfoScreen.Proofs.BankFiles
import InfoScreen.Proofs.Commands
import InfoScreen.Proofs.PortRuns
import InfoScreen.Proofs.HexBytes
import InfoScreen.Proofs.RecordText
import InfoScreen.Proofs.Corruption
import InfoScreen.Proofs.MergeLaw
import InfoScreen.Proofs.HexAddress
import InfoScreen.Proofs.Splitting
import InfoScreen.Proofs.Decoding
import InfoScreen.Proofs.Drawing
import InfoScreen.Proofs.BootText
import InfoScreen.Proofs.Glyphs
