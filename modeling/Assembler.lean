import Assembler.Dump.Reader
import Assembler.Main
import Assembler.Proofs.Assembly.Extent
import Assembler.Proofs.Assembly.Resolution
import Assembler.Proofs.Assembly.Success
import Assembler.Proofs.Table.Pools
import Assembler.Proofs.Table.Ranks
import Assembler.Proofs.Assembly.History
import Assembler.Proofs.Assembly.Renaming
import Assembler.Proofs.Assembly.Residue
import Assembler.Proofs.Assembly.Closing
import Assembler.Proofs.Assembly.Replay
import Assembler.Proofs.Assembly.Limit
import Assembler.Proofs.Assembly.Simulation
import Assembler.Proofs.Text.Token
import Assembler.Proofs.Assembly.Spelling
import Assembler.Proofs.Dump.Fidelity
import Assembler.Proofs.Assembly.Stream
import Assembler.Proofs.Json.Grammar
import Assembler.Proofs.Json.Spacing
import Assembler.Proofs.Json.Numeral
import Assembler.Proofs.Json.Quoted
import Assembler.Proofs.Json.Skipping
import Assembler.Proofs.Json.Reading
import Assembler.Proofs.Json.Presentation
import Assembler.Proofs.Dump.Presentation
import Assembler.Proofs.Dump.RoundTrip
import Assembler.Proofs.Assembly.Restart
import Assembler.Proofs.Assembly.Layout
import Assembler.Proofs.Assembly.Causality
import Assembler.Proofs.Assembly.Citation
import Assembler.Proofs.Assembly.Indexing
import Assembler.Proofs.Command.Agreement
import Assembler.Proofs.Assembly.WordSize
import Assembler.Proofs.Assembly.Evaluation
import Assembler.Proofs.Assembly.Integrity
import Assembler.Proofs.Assembly.Listing
import Assembler.Proofs.Assembly.MachineCode
import Assembler.Proofs.Assembly.Number
import Assembler.Proofs.Assembly.Tables
import Assembler.Proofs.Text.Piece
import Assembler.Proofs.Assembly.Mention
import Assembler.Proofs.Assembly.Naming
