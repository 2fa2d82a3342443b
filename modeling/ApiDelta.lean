import ApiDelta.Main
import ApiDelta.Text.CodePoints.Lemmas
import ApiDelta.Proofs.ClassifiedDelta
import ApiDelta.Proofs.PlanParts
import ApiDelta.Proofs.PlanCoverage
import ApiDelta.Proofs.WalkExactness
import ApiDelta.Proofs.Families
import ApiDelta.Proofs.Ownership
import ApiDelta.Proofs.MemberFolding
import ApiDelta.Proofs.NumbersAreNames
import ApiDelta.Proofs.EditsInPlace
import ApiDelta.Proofs.Tellings
import ApiDelta.Proofs.Checking
import ApiDelta.Proofs.LiveReferences
import ApiDelta.Proofs.Misplacement
import ApiDelta.Proofs.Dangling
import ApiDelta.Proofs.Consulted
import ApiDelta.Proofs.EntryPoints
import ApiDelta.Proofs.Reordering
import ApiDelta.Proofs.CoherentAdvice
import ApiDelta.Proofs.TypedSnapshots
import ApiDelta.Proofs.ReorderedWalks
import ApiDelta.Proofs.DueTasks
import ApiDelta.Proofs.ListOrder
import ApiDelta.Proofs.CanonicalText
import ApiDelta.Proofs.SchemaReading
import ApiDelta.Proofs.WrittenDiagnoses
import ApiDelta.Proofs.DecimalNumerals
import ApiDelta.Proofs.NormalForms
import ApiDelta.Proofs.ProvidedSettings
import ApiDelta.Proofs.SettingPrecedence
import ApiDelta.Proofs.FailedRuns
import ApiDelta.Proofs.BreakingRules
import ApiDelta.Proofs.ReexportChains
import ApiDelta.Proofs.ReversedDelta
import ApiDelta.Proofs.Presentation
import ApiDelta.Proofs.CompatibleSteps
import ApiDelta.Proofs.MemberLists
import ApiDelta.Proofs.BoundedWalks
import ApiDelta.Proofs.SameParts
import ApiDelta.Proofs.LeafInsertions
import ApiDelta.Proofs.AddedLeaves
import ApiDelta.Proofs.SoleReferences
import ApiDelta.Proofs.SplicedModules
import ApiDelta.Proofs.VersionGrammar
import ApiDelta.Proofs.VersionTexts
import ApiDelta.Proofs.KnownKinds
import ApiDelta.Proofs.ShapeChanges
import ApiDelta.Proofs.UndeclaredKeys
