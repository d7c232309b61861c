import LineTable.CommandLine.Session
import LineTable.Main
import LineTable.Proofs.Agreement
import LineTable.Proofs.Checked
import LineTable.Proofs.HeaderLayout
import LineTable.Proofs.LineContents
import LineTable.Proofs.Neighbours
import LineTable.Proofs.NoEffect
import LineTable.Proofs.QueryHistory
import LineTable.Proofs.ReferenceMachine
import LineTable.Proofs.Reports
import LineTable.Proofs.Sequences
import LineTable.Proofs.SpelledOut
import LineTable.Proofs.Statements
import LineTable.Proofs.StoreHistory
import LineTable.Proofs.Truncation
import LineTable.Proofs.UnitOffsets
import LineTable.Proofs.Frames
import LineTable.Proofs.Refusals
import LineTable.Proofs.Interleaving
import LineTable.Proofs.RowOrder
import LineTable.Proofs.Stepping
import LineTable.Proofs.Printing
import LineTable.Proofs.Covering
import LineTable.Proofs.Outcomes
import LineTable.Proofs.Advances
import LineTable.Proofs.RowFlags
import LineTable.Proofs.Packing
import LineTable.Proofs.FileNumbers
import LineTable.Proofs.UnitNames
import LineTable.Proofs.RootlessUnits
import LineTable.Proofs.Passes
import LineTable.Proofs.RangeCuts
import LineTable.Proofs.AddressTexts
import LineTable.Proofs.DecisiveOptions
import LineTable.Proofs.StoredFrames
