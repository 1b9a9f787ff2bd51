import Rulebook.Formula.Evaluation
import Rulebook.Main
import Rulebook.Proofs.Doubles
import Rulebook.Proofs.RuleEquality
import Rulebook.Proofs.Grammar
import Rulebook.Proofs.ReadFormulas
import Rulebook.Proofs.WrittenFields
import Rulebook.Proofs.BareFields
import Rulebook.Proofs.ReadTables
import Rulebook.Proofs.ProperFields
import Rulebook.Proofs.CompiledRules
import Rulebook.Proofs.Numerals
import Rulebook.Proofs.NearestDouble
import Rulebook.Proofs.Magnitudes
import Rulebook.Proofs.NumberText
import Rulebook.Proofs.Scanning
import Rulebook.Proofs.RoundTrip
import Rulebook.Proofs.EmittedText
import Rulebook.Proofs.Ownership
import Rulebook.Proofs.Chapters
import Rulebook.Proofs.Sessions
import Rulebook.Proofs.LedgerAndBook
import Rulebook.Proofs.SheetSections
import Rulebook.Proofs.References
import Rulebook.Proofs.FailedCalls
import Rulebook.Proofs.BatchOrder
import Rulebook.Proofs.BatchIsolation
import Rulebook.Proofs.MergeSafety
import Rulebook.Proofs.Recompilation
import Rulebook.Proofs.Targets
import Rulebook.Proofs.AttributeGroups
import Rulebook.Proofs.SpellDescriptions
import Rulebook.Proofs.SpellVariants
import Rulebook.Proofs.VariantSpecs
import Rulebook.Proofs.TotalRules
import Rulebook.Proofs.SavingThrows
import Rulebook.Proofs.NoteTemplates
import Rulebook.Proofs.Placeholders
import Rulebook.Proofs.Interpolations
import Rulebook.Proofs.RegexMatches
import Rulebook.Proofs.WeaponTexts
import Rulebook.Proofs.WeaponPatterns
import Rulebook.Proofs.BonusLines
import Rulebook.Proofs.OwnBonuses
import Rulebook.Proofs.Coexistence
import Rulebook.Proofs.WeaponAliasing
import Rulebook.Proofs.DoubleOrder
import Rulebook.Proofs.WholeDoubles
import Rulebook.Proofs.FormulaValues
import Rulebook.Proofs.StepFunctions
import Rulebook.Proofs.TableProgressions
import Rulebook.Proofs.ExactNumbers
import Rulebook.Proofs.ExperienceLevels
import Rulebook.Proofs.LinearProgressions
import Rulebook.Proofs.FieldLookups
import Rulebook.Proofs.FieldOrder
import Rulebook.Proofs.ReferencedAttributes
import Rulebook.Proofs.EditLog
import Rulebook.Proofs.EffectEntries
import Rulebook.Proofs.Requirements
import Rulebook.Proofs.JsonText
import Rulebook.Proofs.StoredRules
import Rulebook.Proofs.CharacterSets
import Rulebook.Proofs.CaseFolding
import Rulebook.Proofs.PatternReading
import Rulebook.Proofs.CustomPatterns
import Rulebook.Proofs.CorrectRounding
import Rulebook.Proofs.ReadNumbers
import Rulebook.Proofs.Blanks
import Rulebook.Proofs.CasterLabels
