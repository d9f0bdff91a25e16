import BinaryFacts.OrderedMap
import BinaryFacts.Text.Upper
import BinaryFacts.Text.Blank
import BinaryFacts.Text.Quoted
import BinaryFacts.Json.Reader
import BinaryFacts.Json.Printer
import BinaryFacts.Json.Record
import BinaryFacts.Json.Library
import BinaryFacts.Fact.Json
import BinaryFacts.Instruction.Json
import BinaryFacts.Binary.Report
import BinaryFacts.Binary.Json
import BinaryFacts.Decoder.Sweep
import BinaryFacts.Loader.Header
import BinaryFacts.Loader.Data
import BinaryFacts.Loader.Symbol
import BinaryFacts.Loader.Exception
import BinaryFacts.Analysis.Builtin
import BinaryFacts.Analysis.Pipeline
import BinaryFacts.Analysis.Config
import BinaryFacts.Main
import BinaryFacts.Proofs.OperandReferences
import BinaryFacts.Proofs.FrameSections
import BinaryFacts.Proofs.FailingRuns
import BinaryFacts.Proofs.LocalReaders
import BinaryFacts.Proofs.RecordBounds
import BinaryFacts.Proofs.DriverRuns
import BinaryFacts.Proofs.CutEdges
import BinaryFacts.Proofs.GraphInvariant
import BinaryFacts.Proofs.LoaderOrder
import BinaryFacts.Proofs.LoaderTrees
import BinaryFacts.Proofs.DataLookup
import BinaryFacts.Proofs.Numerals
import BinaryFacts.Proofs.JsonText
import BinaryFacts.Proofs.JsonLaws
import BinaryFacts.Proofs.StoreDocuments
import BinaryFacts.Proofs.AcceptedConfigs
import BinaryFacts.Proofs.DependencyResults
import BinaryFacts.Proofs.Reanalysis
import BinaryFacts.Proofs.RelationSchema
import BinaryFacts.Proofs.Introspection
import BinaryFacts.Proofs.DerivedRows
import BinaryFacts.Proofs.DerivedFunctions
import BinaryFacts.Proofs.DerivedGraph
import BinaryFacts.Proofs.GrowingSections
import BinaryFacts.Proofs.RepeatedCuts
import BinaryFacts.Proofs.DataAddresses
import BinaryFacts.Proofs.HiddenBytes
import BinaryFacts.Proofs.PlacedImages
import BinaryFacts.Proofs.SymbolTables
import BinaryFacts.Proofs.ImageAddresses
import BinaryFacts.Proofs.FileContents
import BinaryFacts.Proofs.NarrowFrames
import BinaryFacts.Proofs.ListingHistory
import BinaryFacts.Proofs.RegisteredTargets
import BinaryFacts.Proofs.AddressNumerals
import BinaryFacts.Proofs.MnemonicWords
import BinaryFacts.Proofs.BinaryDocuments
import BinaryFacts.Proofs.DigitLoops
import BinaryFacts.Proofs.IndexedOperands
import BinaryFacts.Proofs.CheckedWalk
import BinaryFacts.Proofs.WalkBounds
