import Diagnosis.Batch
import Diagnosis.Export
import Diagnosis.Report.Basic
import Diagnosis.Proofs.LineReading
import Diagnosis.Proofs.Sighting
import Diagnosis.Proofs.EnclosingPath
import Diagnosis.Proofs.Appending
import Diagnosis.Proofs.Indentation
import Diagnosis.Proofs.ArrayOfObject
import Diagnosis.Proofs.Agreement
import Diagnosis.Proofs.SpelledLiteral
import Diagnosis.Proofs.Unescaped
import Diagnosis.Proofs.Recognition
import Diagnosis.Proofs.FirstOccurrence
import Diagnosis.Proofs.PropertyDifferences
import Diagnosis.Proofs.AlignedRows
import Diagnosis.Proofs.PathModes
import Diagnosis.Proofs.Independence
import Diagnosis.Proofs.LiteralParts
import Diagnosis.Proofs.Provenance
import Diagnosis.Proofs.Representative
import Diagnosis.Proofs.Lossless
import Diagnosis.Proofs.Insertions
import Diagnosis.Proofs.ExchangedTypes
import Diagnosis.Proofs.LiteralEntries
import Diagnosis.Proofs.OptionalMark
import Diagnosis.Proofs.LineReport
import Diagnosis.Proofs.ArrayProperties
import Diagnosis.Proofs.MismatchLine
import Diagnosis.Proofs.ExpectedArray
import Diagnosis.Proofs.NameList
import Diagnosis.Proofs.EnglishList
import Diagnosis.Proofs.MissingList
import Diagnosis.Proofs.Precedence
import Diagnosis.Proofs.Subsumption
import Diagnosis.Proofs.Relayout
import Diagnosis.Proofs.SuggestedNames
import Diagnosis.Proofs.CodeOccurrences
import Diagnosis.Proofs.StatedCounts
import Diagnosis.Proofs.Trace
import Diagnosis.Proofs.Columns
import Diagnosis.Proofs.Visits
import Diagnosis.Proofs.Advice
import Diagnosis.Proofs.ShortReport
