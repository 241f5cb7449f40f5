import ActivityCatalogue.Codec.Property
import ActivityCatalogue.Codec.Settings
import ActivityCatalogue.Main
import ActivityCatalogue.Proofs.CatalogueComparison
import ActivityCatalogue.Proofs.TypeReading
import ActivityCatalogue.Proofs.History
import ActivityCatalogue.Proofs.Filling
import ActivityCatalogue.Proofs.PackagePairing
import ActivityCatalogue.Proofs.ConsoleReport
import ActivityCatalogue.Proofs.ExitCode
import ActivityCatalogue.Proofs.Lineage
import ActivityCatalogue.Proofs.CatalogueListing
import ActivityCatalogue.Proofs.FaultIsolation
import ActivityCatalogue.Proofs.Sensitivities
import ActivityCatalogue.Proofs.SideExchange
import ActivityCatalogue.Proofs.SelfComparison
import ActivityCatalogue.Proofs.RunLog
import ActivityCatalogue.Proofs.PropertyComparison
import ActivityCatalogue.Proofs.Resimplification
import ActivityCatalogue.Proofs.Lookahead
import ActivityCatalogue.Proofs.OpenBrackets
import ActivityCatalogue.Proofs.ViablePrefix
import ActivityCatalogue.Proofs.DecodedVariants
import ActivityCatalogue.Proofs.Locality
import ActivityCatalogue.Proofs.PackageBlocks
import ActivityCatalogue.Proofs.Enumeration
import ActivityCatalogue.Proofs.AllOrNothing
import ActivityCatalogue.Proofs.ConfiguredRoots
import ActivityCatalogue.Proofs.DecoratedNames
import ActivityCatalogue.Proofs.PopulationAccount
import ActivityCatalogue.Proofs.SkippedClasses
import ActivityCatalogue.Proofs.ArgumentNames
import ActivityCatalogue.Proofs.NamespaceChoice
import ActivityCatalogue.Proofs.ReportRuns
import ActivityCatalogue.Proofs.PathExpansion
import ActivityCatalogue.Proofs.SettingsCreation
import ActivityCatalogue.Proofs.ScannerSafety
