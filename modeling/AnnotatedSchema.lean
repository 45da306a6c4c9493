import AnnotatedSchema.Main
import AnnotatedSchema.Query.Builder
import AnnotatedSchema.Proofs.Placement
import AnnotatedSchema.Proofs.Keywords
import AnnotatedSchema.Proofs.RoundTrip
import AnnotatedSchema.Proofs.Defaults
import AnnotatedSchema.Proofs.Occurrences
import AnnotatedSchema.Proofs.Acceptance
import AnnotatedSchema.Proofs.ClauseFaults
import AnnotatedSchema.Proofs.Rescan
import AnnotatedSchema.Proofs.ColumnChange
import AnnotatedSchema.Proofs.ColumnOrder
import AnnotatedSchema.Proofs.TableBuild
import AnnotatedSchema.Proofs.ReferenceReading
import AnnotatedSchema.Proofs.ReferenceTargets
import AnnotatedSchema.Proofs.ForeignKeyRoundTrip
import AnnotatedSchema.Proofs.DocumentTables
import AnnotatedSchema.Proofs.Composition
import AnnotatedSchema.Proofs.Balance
import AnnotatedSchema.Proofs.QueryNesting
import AnnotatedSchema.Proofs.ColumnText
import AnnotatedSchema.Proofs.DocumentScript
import AnnotatedSchema.Proofs.QueryCalls
import AnnotatedSchema.Proofs.DefaultPlacement
import AnnotatedSchema.Proofs.Grammar
import AnnotatedSchema.Proofs.Tiling
import AnnotatedSchema.Proofs.QuotedText
import AnnotatedSchema.Proofs.ValueDefaults
import AnnotatedSchema.Proofs.KeyOptions
import AnnotatedSchema.Proofs.ActionClauses
import AnnotatedSchema.Proofs.LetterCase
import AnnotatedSchema.Proofs.IdentifierPasses
import AnnotatedSchema.Proofs.IdentifierWords
import AnnotatedSchema.Proofs.QuerySpelling
import AnnotatedSchema.Proofs.Spelling
import AnnotatedSchema.Proofs.NumberForms
import AnnotatedSchema.Proofs.WrappedTypes
import AnnotatedSchema.Proofs.FieldErrors
import AnnotatedSchema.Proofs.CheckedEntries
import AnnotatedSchema.Proofs.ForeignKeyCalls
import AnnotatedSchema.Proofs.InlineLiterals
import AnnotatedSchema.Proofs.ReferenceForms
import AnnotatedSchema.Proofs.ScriptCalls
